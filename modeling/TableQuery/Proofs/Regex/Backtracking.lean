import TableQuery.Regex.Matching

/-!
Expressions whose loops take a character in each step. On the way to a match of such an
expression no node is met twice without a character in between: a node that is met both
before the first character of a step and after the last one would let the step take
nothing. So nothing has to be remembered, and tracing the expression is plain
backtracking.
-/

namespace TableQuery.Regex

variable {β : Type} {re body : Regex} {node m : Nat}

/-- Whether each step of each loop takes a character. -/
def loopsTake : Regex → Bool
  | empty | chars _ | look _ => true
  | seq first second | alt first second => first.loopsTake && second.loopsTake
  | plus _ body | star _ body => body.takes && body.loopsTake

def repeatStep (greedy : Bool) (step : (Cursor → Option β) → Cursor → Option β)
    (k : Cursor → Option β) (cursor : Cursor) : Option β :=
  let more := step (fun next =>
    if next.remaining < cursor.remaining then repeatStep greedy step k next else none) cursor
  if greedy then more.or (k cursor) else (k cursor).or more
termination_by cursor.remaining

/-- Backtracking without regard to the nodes that were met. -/
def run : Regex → (Cursor → Option β) → Cursor → Option β
  | empty, k, cursor => k cursor
  | chars set, k, cursor =>
    match cursor.next? with
    | some (c, next) => if set.contains c then k next else none
    | none => none
  | look assertion, k, cursor => if assertion.holds cursor then k cursor else none
  | seq first second, k, cursor => run first (run second k) cursor
  | alt first second, k, cursor => (run first k cursor).or (run second k cursor)
  | plus greedy body, k, cursor => run body (repeatStep greedy (run body) k) cursor
  | star greedy body, k, cursor => repeatStep greedy (run body) k cursor

/-- The nodes that can be met before a character is taken. -/
def firstNodes : Regex → Nat → List Nat
  | empty, _ | chars _, _ | look _, _ => []
  | seq first second, node =>
    firstNodes first node ++ if first.takes then [] else firstNodes second (node + first.nodes)
  | alt first second, node =>
    node :: (firstNodes first (node + 1) ++ firstNodes second (node + 1 + first.nodes))
  | plus _ body, node =>
    firstNodes body (node + 1) ++ if body.takes then [] else [node]
  | star _ body, node => node :: firstNodes body (node + 1)

/-- The nodes that can have been met since the last character was taken. -/
def lastNodes : Regex → Nat → List Nat
  | empty, _ | chars _, _ | look _, _ => []
  | seq first second, node =>
    lastNodes second (node + first.nodes) ++ if second.takes then [] else lastNodes first node
  | alt first second, node =>
    lastNodes first (node + 1) ++ lastNodes second (node + 1 + first.nodes) ++
      if first.takes && second.takes then [] else [node]
  | plus _ body, node | star _ body, node => node :: lastNodes body (node + 1)

theorem mem_firstNodes_seq {first second : Regex} :
    m ∈ (seq first second).firstNodes node ↔
      m ∈ first.firstNodes node ∨
        first.takes = false ∧ m ∈ second.firstNodes (node + first.nodes) := by
  rw [firstNodes, List.mem_append]
  cases first.takes <;> simp

theorem mem_lastNodes_seq {first second : Regex} :
    m ∈ (seq first second).lastNodes node ↔
      m ∈ second.lastNodes (node + first.nodes) ∨
        second.takes = false ∧ m ∈ first.lastNodes node := by
  rw [lastNodes, List.mem_append]
  cases second.takes <;> simp

theorem mem_lastNodes_alt {first second : Regex} :
    m ∈ (alt first second).lastNodes node ↔
      (m ∈ first.lastNodes (node + 1) ∨ m ∈ second.lastNodes (node + 1 + first.nodes)) ∨
        (alt first second).takes = false ∧ m = node := by
  rw [lastNodes, List.mem_append, List.mem_append, takes]
  cases first.takes && second.takes <;> simp

theorem range_of_mem_firstNodes (h : m ∈ re.firstNodes node) :
    node ≤ m ∧ m < node + re.nodes := by
  induction re generalizing node with
  | empty | chars set | look assertion => cases h
  | seq first second ihFirst ihSecond | alt first second ihFirst ihSecond =>
      simp only [firstNodes, nodes] at h ⊢
      grind
  | plus greedy body ih | star greedy body ih =>
      simp only [firstNodes, nodes] at h ⊢
      grind

theorem range_of_mem_lastNodes (h : m ∈ re.lastNodes node) :
    node ≤ m ∧ m < node + re.nodes := by
  induction re generalizing node with
  | empty | chars set | look assertion => cases h
  | seq first second ihFirst ihSecond | alt first second ihFirst ihSecond =>
      simp only [lastNodes, nodes] at h ⊢
      grind
  | plus greedy body ih | star greedy body ih =>
      simp only [lastNodes, nodes] at h ⊢
      grind

/-- Through a node at both ends, a match could take nothing. -/
theorem not_mem_lastNodes (htakes : re.takes = true) (hfirst : m ∈ re.firstNodes node) :
    m ∉ re.lastNodes node := by
  induction re generalizing node with
  | empty | chars set | look assertion => cases hfirst
  | seq first second ihFirst ihSecond =>
      rw [takes, Bool.or_eq_true] at htakes
      rw [mem_firstNodes_seq] at hfirst
      rw [mem_lastNodes_seq]
      grind [→ range_of_mem_firstNodes, → range_of_mem_lastNodes]
  | alt first second ihFirst ihSecond =>
      rw [takes, Bool.and_eq_true] at htakes
      rw [mem_lastNodes_alt, takes, htakes.1, htakes.2]
      grind [firstNodes, → range_of_mem_firstNodes,
        → range_of_mem_lastNodes]
  | plus greedy body ih =>
      grind [firstNodes, lastNodes, takes, → range_of_mem_firstNodes,
        → range_of_mem_lastNodes]
  | star greedy body ih => cases htakes

/-! ### Tracing without memory -/

/-- No node that comes first has been met. -/
def Fresh (re : Regex) (node : Nat) (here : Progress) : Prop :=
  ∀ m ∈ re.firstNodes node, m ∉ here.met

/-- What has been met where a match ends: nodes of its end, and what had been met before if it
took nothing. -/
def Reaches (re : Regex) (node : Nat) (here next : Progress) : Prop :=
  ∀ m ∈ next.met, m ∈ re.lastNodes node ∨ re.takes = false ∧ m ∈ here.met

section Progress

variable {first second : Regex} {greedy : Bool} {here mid next : Progress}

theorem Reaches.of_met (htakes : re.takes = false) : Reaches re node here here :=
  fun _ hm => .inr ⟨htakes, hm⟩

theorem Reaches.mem_lastNodes (h : Reaches re node here next) (htakes : re.takes = true)
    (hm : m ∈ next.met) : m ∈ re.lastNodes node :=
  (h m hm).resolve_right fun hnone => by simp [htakes] at hnone

theorem Fresh.seq (h : Fresh (seq first second) node here) (hmid : Reaches first node here mid) :
    Fresh second (node + first.nodes) mid := by
  intro m hm hmet
  rcases hmid m hmet with hlast | ⟨htakes, hmet⟩
  · have := range_of_mem_lastNodes hlast
    have := range_of_mem_firstNodes hm
    omega
  · exact h m (mem_firstNodes_seq.mpr (.inr ⟨htakes, hm⟩)) hmet

theorem Reaches.seq (hmid : Reaches first node here mid)
    (h : Reaches second (node + first.nodes) mid next) :
    Reaches (seq first second) node here next := by
  intro m hm
  rcases h m hm with hm | ⟨htakes, hm⟩
  · exact .inl (mem_lastNodes_seq.mpr (.inl hm))
  · rcases hmid m hm with hm | ⟨htakes', hm⟩
    · exact .inl (mem_lastNodes_seq.mpr (.inr ⟨htakes, hm⟩))
    · exact .inr ⟨by rw [takes, htakes, htakes', Bool.or_self], hm⟩

/-- A node that comes before all of an expression does not count as met. -/
theorem Fresh.meet {inner : Nat} (h : ∀ m ∈ re.firstNodes inner, m ∉ here.met)
    (hlt : node < inner) : Fresh re inner (here.meet node) := by
  intro m hm hmet
  rcases List.mem_cons.mp hmet with rfl | hmet
  · have := range_of_mem_firstNodes hm
    omega
  · exact h m hm hmet

theorem Reaches.alt_first (h : Reaches first (node + 1) (here.meet node) next) :
    Reaches (alt first second) node here next := by
  intro m hm
  rw [mem_lastNodes_alt, takes]
  rcases h m hm with hm | ⟨htakes, hm⟩
  · exact .inl (.inl (.inl hm))
  · rw [htakes, Bool.false_and]
    rcases List.mem_cons.mp hm with rfl | hm
    · exact .inl (.inr ⟨rfl, rfl⟩)
    · exact .inr ⟨rfl, hm⟩

theorem Reaches.alt_second (h : Reaches second (node + 1 + first.nodes) (here.meet node) next) :
    Reaches (alt first second) node here next := by
  intro m hm
  rw [mem_lastNodes_alt, takes]
  rcases h m hm with hm | ⟨htakes, hm⟩
  · exact .inl (.inl (.inr hm))
  · rw [htakes, Bool.and_false]
    rcases List.mem_cons.mp hm with rfl | hm
    · exact .inl (.inr ⟨rfl, rfl⟩)
    · exact .inr ⟨rfl, hm⟩

theorem Reaches.star_meet : Reaches (star greedy body) node here (here.meet node) := by
  intro m hm
  rcases List.mem_cons.mp hm with rfl | hm
  · exact .inl List.mem_cons_self
  · exact .inr ⟨rfl, hm⟩

/-- A step that takes a character leaves nothing behind that the next one meets first. -/
theorem Fresh.star (hbody : Reaches body (node + 1) here next) (htakes : body.takes = true) :
    Fresh (star greedy body) node next := by
  refine List.forall_mem_cons.mpr ⟨fun hm => ?_, fun m hm hmet => ?_⟩
  · have := range_of_mem_lastNodes (hbody.mem_lastNodes htakes hm)
    omega
  · exact not_mem_lastNodes htakes hm (hbody.mem_lastNodes htakes hmet)

theorem Reaches.star (hbody : Reaches body (node + 1) here mid) (htakes : body.takes = true)
    (h : Reaches (star greedy body) node mid next) :
    ∀ m ∈ next.met, m ∈ (star greedy body).lastNodes node := by
  intro m hm
  rcases h m hm with hm | ⟨-, hm⟩
  · exact hm
  · exact List.mem_cons_of_mem _ (hbody.mem_lastNodes htakes hm)

end Progress

variable {k' : Progress → Option β} {k : Cursor → Option β} {here : Progress}

theorem iterate_eq_repeatStep {greedy : Bool} (htakes : body.takes = true)
    (hbody : ∀ (k' : Progress → Option β) (k : Cursor → Option β) (here : Progress),
      Fresh body (node + 1) here →
      (∀ next, Reaches body (node + 1) here next → k' next = k next.cursor) →
        body.trace (node + 1) k' here = body.run k here.cursor)
    (hfresh : Fresh (star greedy body) node here)
    (hk : ∀ next, Reaches (star greedy body) node here next → k' next = k next.cursor) :
    iterate node greedy (body.trace (node + 1)) k' here =
      repeatStep greedy body.run k here.cursor := by
  induction hn : here.cursor.remaining using Nat.strongRecOn generalizing here with
  | ind n ih =>
      subst hn
      obtain ⟨hnode, hfirst⟩ := List.forall_mem_cons.mp hfresh
      have hstop : k' (here.meet node) = k here.cursor := hk (here.meet node) .star_meet
      have hmore : body.trace (node + 1) (fun next =>
            if next.cursor.remaining < here.cursor.remaining then
              iterate node greedy (body.trace (node + 1)) k' next
            else none) (here.meet node) =
          body.run (fun next =>
            if next.remaining < here.cursor.remaining then repeatStep greedy body.run k next
            else none) here.cursor := by
        refine hbody _ _ (here.meet node) (.meet hfirst (Nat.lt_add_one node)) fun next hnext => ?_
        split
        · rename_i hlt
          exact ih _ hlt (.star hnext htakes)
            (fun after hafter => hk after fun m hm => .inl (hnext.star htakes hafter m hm)) rfl
        · rfl
      rw [iterate, repeatStep, if_neg hnode]
      simp only [hmore, hstop]

/-- Where no node that comes first has been met before, it does not matter what has been. -/
theorem trace_eq_run (h : re.loopsTake = true) (hfresh : Fresh re node here)
    (hk : ∀ next, Reaches re node here next → k' next = k next.cursor) :
    re.trace node k' here = re.run k here.cursor := by
  induction re generalizing node k' k here with
  | empty => exact hk here (.of_met rfl)
  | chars set =>
      rw [trace, run]
      cases here.cursor.next? with
      | none => rfl
      | some next =>
          have hnext : k' ⟨next.2, []⟩ = k next.2 := hk _ fun m hm => absurd hm List.not_mem_nil
          simp only [hnext]
  | look assertion => rw [trace, run, hk here (.of_met rfl)]
  | seq first second ihFirst ihSecond =>
      rw [loopsTake, Bool.and_eq_true] at h
      exact ihFirst h.1 (fun m hm => hfresh m (mem_firstNodes_seq.mpr (.inl hm))) fun mid hmid =>
        ihSecond h.2 (hfresh.seq hmid) fun next hnext => hk next (hmid.seq hnext)
  | alt first second ihFirst ihSecond =>
      rw [loopsTake, Bool.and_eq_true] at h
      obtain ⟨hnode, hinner⟩ := List.forall_mem_cons.mp hfresh
      rw [List.forall_mem_append] at hinner
      rw [trace, run, if_neg hnode,
        ihFirst h.1 (.meet hinner.1 (by omega)) fun next hnext => hk next hnext.alt_first,
        ihSecond h.2 (.meet hinner.2 (by omega)) fun next hnext => hk next hnext.alt_second]
      rfl
  | plus greedy body ih =>
      rw [loopsTake, Bool.and_eq_true] at h
      -- The first step comes before the node of the loop, and all others after it.
      refine ih h.2 (fun m hm => hfresh m (List.mem_append_left _ hm)) fun mid hmid => ?_
      refine iterate_eq_repeatStep h.1 (fun _ _ _ => ih h.2) (.star hmid h.1) fun next hnext => ?_
      exact hk next fun m hm => .inl (hmid.star h.1 hnext m hm)
  | star greedy body ih =>
      rw [loopsTake, Bool.and_eq_true] at h
      exact iterate_eq_repeatStep h.1 (fun _ _ _ => ih h.2) hfresh hk

theorem endAt?_eq_run (h : re.loopsTake = true) (cursor : Cursor) :
    re.endAt? cursor = re.run some cursor :=
  trace_eq_run h (fun _ _ => List.not_mem_nil) fun _ _ => rfl

end TableQuery.Regex
