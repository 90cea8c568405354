import TableQuery.Regex.Matching

/-!
What a match takes of its text. All places where a match of an expression can end are
listed in the order of preference, without regard to what follows the match. Tracing the
expression takes the first of them that lets its continuation succeed. None of them is
before the place where the match begins, because a repetition does not go back if each of
its steps does not. A search therefore cuts the text in three, at borders of characters:
what comes before the match, the match, and what is left.
-/

namespace TableQuery

namespace Cursor

variable {cursor next start stop : Cursor} {c : Char}

theorem rest_of_next? (h : cursor.next? = some (c, next)) : cursor.rest = c :: next.rest := by
  unfold next? at h
  split at h
  · simp only [Option.some.injEq, Prod.mk.injEq] at h
    obtain ⟨rfl, rfl⟩ := h
    rfl
  · simp at h

theorem upTo_append_rest (h : stop.rest <:+ start.rest) :
    start.upTo stop ++ stop.rest = start.rest := by
  obtain ⟨taken, htaken⟩ := h
  rw [upTo, start.remaining_eq, stop.remaining_eq, ← htaken, List.length_append,
    Nat.add_sub_cancel, List.take_left]

end Cursor

namespace Regex

variable {β : Type} {re : Regex} {cursor ending : Cursor} {node : Nat} {here : Progress}

/-- Where any number of steps can end. More steps are preferred to fewer ones if greedy. -/
def iterateEndings (node : Nat) (greedy : Bool) (step : Progress → List Progress)
    (here : Progress) : List Progress :=
  if node ∈ here.met then [] else
  let met := here.meet node
  let more := (step met).flatMap fun next =>
    if next.cursor.remaining < here.cursor.remaining then iterateEndings node greedy step next
    else []
  if greedy then more ++ [met] else met :: more
termination_by here.cursor.remaining

/-- Where a match that begins with some progress can end, the most preferred ending first.
Of two parts that follow each other, what the first one prefers comes before what the
second one does. -/
def endingsFrom : Regex → Nat → Progress → List Progress
  | empty, _, here => [here]
  | chars set, _, here =>
    match here.cursor.next? with
    | some (c, next) => if set.contains c then [⟨next, []⟩] else []
    | none => []
  | look assertion, _, here => if assertion.holds here.cursor then [here] else []
  | seq first second, node, here =>
    (endingsFrom first node here).flatMap (endingsFrom second (node + first.nodes))
  | alt first second, node, here =>
    if node ∈ here.met then [] else
    endingsFrom first (node + 1) (here.meet node) ++
      endingsFrom second (node + 1 + first.nodes) (here.meet node)
  | plus greedy body, node, here =>
    (endingsFrom body (node + 1) here).flatMap
      (iterateEndings node greedy (endingsFrom body (node + 1)))
  | star greedy body, node, here => iterateEndings node greedy (endingsFrom body (node + 1)) here

/-- The places where a match that begins at a place can end. -/
def endings (re : Regex) (cursor : Cursor) : List Cursor :=
  (re.endingsFrom 0 ⟨cursor, []⟩).map Progress.cursor

theorem findSome?_flatMap (f : Progress → List Progress) (k : Progress → Option β)
    (endings : List Progress) :
    (endings.flatMap f).findSome? k = endings.findSome? fun next => (f next).findSome? k := by
  induction endings with
  | nil => rfl
  | cons next endings ih =>
      rw [List.flatMap_cons, List.findSome?_append, List.findSome?_cons, ih]
      cases (f next).findSome? k <;> rfl

theorem iterate_eq_findSome? {step : (Progress → Option β) → Progress → Option β}
    {ends : Progress → List Progress} (h : ∀ k here, step k here = (ends here).findSome? k)
    (greedy : Bool) (k : Progress → Option β) (here : Progress) :
    iterate node greedy step k here = (iterateEndings node greedy ends here).findSome? k := by
  induction hn : here.cursor.remaining using Nat.strongRecOn generalizing here with
  | ind n ih =>
      subst hn
      rw [iterate, iterateEndings]
      split
      · rfl
      have hmore : step (fun next =>
            if next.cursor.remaining < here.cursor.remaining then iterate node greedy step k next
            else none) (here.meet node) =
          ((ends (here.meet node)).flatMap fun next =>
            if next.cursor.remaining < here.cursor.remaining then
              iterateEndings node greedy ends next
            else []).findSome? k := by
        rw [h, findSome?_flatMap]
        congr 1
        funext next
        split
        · rename_i hlt
          exact ih _ hlt next rfl
        · rfl
      simp only [hmore]
      split
      · rw [List.findSome?_append, List.findSome?_singleton]
      · rw [List.findSome?_cons]
        cases k (here.meet node) <;> rfl

/-- Tracing an expression tries the places where its match can end, in their order. -/
theorem trace_eq_findSome? (re : Regex) (node : Nat) (k : Progress → Option β)
    (here : Progress) : re.trace node k here = (re.endingsFrom node here).findSome? k := by
  induction re generalizing node k here with
  | empty => exact (List.findSome?_singleton).symm
  | chars set =>
      rw [trace, endingsFrom]
      cases here.cursor.next? with
      | none => rfl
      | some next =>
          obtain ⟨c, next⟩ := next
          by_cases hc : set.contains c = true <;> simp [hc]
  | look assertion =>
      rw [trace, endingsFrom]
      split <;> simp
  | seq first second ihFirst ihSecond =>
      rw [trace, endingsFrom, ihFirst, findSome?_flatMap]
      congr 1
      funext mid
      exact ihSecond _ k mid
  | alt first second ihFirst ihSecond =>
      rw [trace, endingsFrom]
      split
      · rfl
      · rw [ihFirst, ihSecond, List.findSome?_append]
  | plus greedy body ih =>
      rw [trace, endingsFrom, ih, findSome?_flatMap]
      congr 1
      funext mid
      exact iterate_eq_findSome? (fun k here => ih _ k here) greedy k mid
  | star greedy body ih => exact iterate_eq_findSome? (fun k here => ih _ k here) greedy k here

theorem endAt?_eq_head? (re : Regex) (cursor : Cursor) :
    re.endAt? cursor = (re.endings cursor).head? := by
  rw [endAt?, trace_eq_findSome?, endings]
  cases re.endingsFrom 0 ⟨cursor, []⟩ <;> rfl

theorem suffix_of_mem_iterateEndings {greedy : Bool} {step : Progress → List Progress}
    {ending : Progress}
    (h : ∀ here, ∀ next ∈ step here, next.cursor.rest <:+ here.cursor.rest)
    (hending : ending ∈ iterateEndings node greedy step here) :
    ending.cursor.rest <:+ here.cursor.rest := by
  induction hn : here.cursor.remaining using Nat.strongRecOn generalizing here with
  | ind n ih =>
      subst hn
      rw [iterateEndings] at hending
      -- No more steps are taken, or others follow a step that took something.
      have hcases : ending = here.meet node ∨
          ∃ next ∈ step (here.meet node), next.cursor.remaining < here.cursor.remaining ∧
            ending ∈ iterateEndings node greedy step next := by
        grind
      rcases hcases with rfl | ⟨next, hnext, hlt, hmore⟩
      · exact List.suffix_rfl
      · have htaken : next.cursor.rest <:+ here.cursor.rest := h (here.meet node) next hnext
        exact (ih next.cursor.remaining hlt hmore rfl).trans htaken

theorem suffix_of_mem_endingsFrom {ending : Progress} (h : ending ∈ re.endingsFrom node here) :
    ending.cursor.rest <:+ here.cursor.rest := by
  induction re generalizing node here ending with
  | empty =>
      obtain rfl := List.mem_singleton.mp h
      exact List.suffix_rfl
  | chars set =>
      rw [endingsFrom] at h
      split at h
      · rename_i c next hnext
        obtain ⟨-, hmem⟩ := List.mem_ite_nil_right.mp h
        rw [List.mem_singleton.mp hmem]
        exact ⟨[c], (Cursor.rest_of_next? hnext).symm⟩
      · simp at h
  | look assertion =>
      rw [endingsFrom] at h
      obtain ⟨-, hmem⟩ := List.mem_ite_nil_right.mp h
      obtain rfl := List.mem_singleton.mp hmem
      exact List.suffix_rfl
  | seq first second ihFirst ihSecond =>
      obtain ⟨mid, hmid, hending⟩ := List.mem_flatMap.mp h
      exact (ihSecond hending).trans (ihFirst hmid)
  | alt first second ihFirst ihSecond =>
      rw [endingsFrom] at h
      obtain ⟨-, h⟩ := List.mem_ite_nil_left.mp h
      rcases List.mem_append.mp h with h | h
      · exact (ihFirst h :)
      · exact (ihSecond h :)
  | plus greedy body ih =>
      obtain ⟨mid, hmid, hending⟩ := List.mem_flatMap.mp h
      exact (suffix_of_mem_iterateEndings (fun _ _ => ih) hending).trans (ih hmid)
  | star greedy body ih => exact suffix_of_mem_iterateEndings (fun _ _ => ih) h

theorem suffix_of_endAt? (h : re.endAt? cursor = some ending) : ending.rest <:+ cursor.rest := by
  rw [endAt?_eq_head?] at h
  obtain ⟨progress, hmem, rfl⟩ := List.mem_map.mp (List.mem_of_head? h)
  exact suffix_of_mem_endingsFrom hmem

theorem rest_of_findFrom? {re : Regex} {cursor : Cursor} {found : Found}
    (h : re.findFrom? cursor = some found) :
    cursor.rest = found.before ++ (found.matched ++ found.after) := by
  induction hn : cursor.remaining using Nat.strongRecOn generalizing cursor found with
  | ind n ih =>
      subst hn
      rw [findFrom?] at h
      split at h
      · rename_i ending hending
        rw [← Option.some.inj h]
        exact (Cursor.upTo_append_rest (suffix_of_endAt? hending)).symm
      · split at h
        · rename_i c next hnext
          obtain ⟨later, hlater, rfl⟩ := Option.map_eq_some_iff.mp h
          rw [Cursor.rest_of_next? hnext, ih _ (Cursor.remaining_next? hnext) hlater rfl,
            List.cons_append]
        · simp at h

theorem eq_of_find? {re : Regex} {text : List Char} {found : Found}
    (h : re.find? text = some found) :
    text = found.before ++ (found.matched ++ found.after) :=
  rest_of_findFrom? h

/-- A match at the start of the text is preferred to all that begin further on. -/
theorem find?_of_endAt? {text : List Char} (h : re.endAt? (.first text) = some ending) :
    re.find? text = some ⟨[], (Cursor.first text).upTo ending, ending.rest⟩ := by
  rw [find?, findFrom?, h]

theorem before_ne_nil_of_find? {text : List Char} {found : Found}
    (hstart : re.endAt? (.first text) = none) (h : re.find? text = some found) :
    found.before ≠ [] := by
  rw [find?, findFrom?, hstart] at h
  simp only at h
  split at h
  · obtain ⟨later, -, rfl⟩ := Option.map_eq_some_iff.mp h
    exact List.cons_ne_nil _ _
  · cases h

end Regex

end TableQuery
