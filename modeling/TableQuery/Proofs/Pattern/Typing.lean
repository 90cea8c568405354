import Mathlib.Data.List.Forall2
import TableQuery.Proofs.Pattern.Remainders

/-!
Kinds of values. What a pattern can yield is settled by its form and by what its parts
can yield: a text, a list with one value for each part, a list of the values of one
element, or what a function makes of another value. So a pattern is typed by a kind in
the way of a type system, with one rule for each form, and a function in it is checked
against the kind of the values that it is applied to. A typed pattern yields values of its
kind only, whatever the text, and none of its functions rejects a value unless it is
excused.
-/

namespace TableQuery.Pattern

variable {α : Type}

/-- Somewhere in the pattern, however deep, the function is applied to the values of the
inner pattern. -/
inductive Applies : Pattern α → Pattern α → (α → Option α) → Prop
  | here {inner : Pattern α} {f : α → Option α} : Applies (filterMap inner f) inner f
  | filterMap {outer inner : Pattern α} {f g : α → Option α} :
      Applies outer inner f → Applies (filterMap outer g) inner f
  | optional {outer inner : Pattern α} {f : α → Option α} :
      Applies outer inner f → Applies (optional outer) inner f
  | choice {choices : List (Pattern α)} {choice inner : Pattern α} {f : α → Option α} :
      choice ∈ choices → Applies choice inner f → Applies (any choices) inner f
  | part {parts : List (Pattern α)} {part inner : Pattern α} {f : α → Option α} :
      part ∈ parts → Applies part inner f → Applies (seq parts) inner f
  | element {element inner : Pattern α} {separator : Option (Pattern α)} {f : α → Option α} :
      Applies element inner f → Applies (rep element separator) inner f
  | separator {element separator inner : Pattern α} {f : α → Option α} :
      Applies separator inner f → Applies (rep element (some separator)) inner f

variable [Capture α]

/-- Whatever text the pattern is given, a value that it yields is of the kind. -/
def Yields (pattern : Pattern α) (kind : α → Prop) : Prop :=
  ∀ text v rest, pattern.run text = some (v, rest) → kind v

theorem Yields.matchAt? {pattern : Pattern α} {kind : α → Prop} (h : pattern.Yields kind)
    {input : String} {position : Nat} {m : Match α}
    (hm : pattern.matchAt? input position = some m) : kind m.value := by
  obtain ⟨text, htext⟩ := exists_rest_of_matchAt? hm
  obtain ⟨rest, hrun, -⟩ := (agreesAt pattern input position text htext).exists_rest hm
  exact h text m.value rest hrun

/-- One value for each kind, and of this kind. -/
def Each (kinds : List (α → Prop)) (vs : List α) : Prop :=
  List.Forall₂ (fun kind v => kind v) kinds vs

/-- Matches yield values of the kind, and functions accept what they are applied to, but
for the values that are excused. -/
structure Typed (excused : (α → Option α) → α → Prop) (pattern : Pattern α) (kind : α → Prop) :
    Prop where
  yields : pattern.Yields kind
  accepts : ∀ inner f, pattern.Applies inner f →
    inner.Yields fun v => (∃ w, f v = some w) ∨ excused f v

namespace Typed

variable {excused : (α → Option α) → α → Prop} {kind result : α → Prop}

theorem mono {pattern : Pattern α} (h : Typed excused pattern kind)
    (hle : ∀ v, kind v → result v) : Typed excused pattern result where
  yields text v rest hrun := hle v (h.yields text v rest hrun)
  accepts := h.accepts

theorem literal (expected : String) :
    Typed excused (literal expected) fun v => v = Capture.text expected where
  yields _ _ _ h := (run_literal_eq_some_iff.mp h).2
  accepts _ _ h := by cases h

/-- What an expression takes may be known more closely. -/
theorem regex_of_yields {re : Regex} (h : (Pattern.regex re).Yields kind) :
    Typed excused (regex re) kind where
  yields := h
  accepts _ _ h := by cases h

theorem regex (re : Regex) : Typed excused (regex re) fun v => ∃ s, v = Capture.text s := by
  refine regex_of_yields fun text v rest h => ?_
  rw [run_regex_eq] at h
  split at h
  · obtain ⟨rfl, -⟩ := Prod.mk.inj (Option.some.inj h)
    exact ⟨_, rfl⟩
  · simp at h

theorem optional {inner : Pattern α} (h : Typed excused inner kind) :
    Typed excused (optional inner) fun v => v = Capture.nothing ∨ kind v where
  yields text v rest hrun := by
    rcases run_optional_eq_some_iff.mp hrun with hinner | ⟨-, hnothing, -⟩
    · exact .inr (h.yields text v rest hinner)
    · exact .inl hnothing
  accepts inner f happlies := by
    cases happlies with
    | optional happlies => exact h.accepts inner f happlies

theorem any {choices : List (Pattern α)}
    (h : choices.Forall fun choice => Typed excused choice kind) :
    Typed excused (any choices) kind where
  yields text v rest hrun := by
    induction choices with
    | nil => simp [run_any_nil] at hrun
    | cons choice choices ih =>
        obtain ⟨hchoice, hothers⟩ := (List.forall_cons _ _ _).mp h
        rw [run_any_cons, Option.or_eq_some_iff] at hrun
        rcases hrun with hrun | ⟨-, hrun⟩
        · exact hchoice.yields text v rest hrun
        · exact ih hothers hrun
  accepts inner f happlies := by
    cases happlies with
    | choice hmem happlies =>
        exact (List.forall_iff_forall_mem.mp h _ hmem).accepts inner f happlies

theorem seq {parts : List (Pattern α)} {kinds : List (α → Prop)}
    (h : List.Forall₂ (Typed excused) parts kinds) :
    Typed excused (seq parts) fun v => ∃ vs, v = Capture.list vs ∧ Each kinds vs where
  yields text v rest hrun := by
    obtain ⟨vs, rfl, hparts⟩ := run_seq_eq_some_iff.mp hrun
    refine ⟨vs, rfl, ?_⟩
    clear hrun
    induction h generalizing text vs with
    | nil =>
        obtain ⟨rfl, -⟩ := runSeq_nil_eq_some_iff.mp hparts
        exact .nil
    | cons hpart _ ih =>
        obtain ⟨v, mid, tail, rfl, hv, htail⟩ := runSeq_cons_eq_some_iff.mp hparts
        exact .cons (hpart.yields _ _ _ hv) (ih _ _ htail)
  accepts inner f happlies := by
    cases happlies with
    | part hmem happlies =>
        induction h with
        | nil => simp at hmem
        | cons hpart _ ih =>
            rcases List.mem_cons.mp hmem with rfl | hmem
            · exact hpart.accepts inner f happlies
            · exact ih hmem

theorem rep {element : Pattern α} {separator : Option (Pattern α)} {between : α → Prop}
    (h : Typed excused element kind) (hseparator : ∀ p ∈ separator, Typed excused p between) :
    Typed excused (rep element separator) fun v =>
      ∃ vs, v = Capture.list vs ∧ vs ≠ [] ∧ ∀ w ∈ vs, kind w where
  yields text v rest hrun := by
    obtain ⟨first, mid, hfirst, -, rfl, -⟩ := run_rep_eq_some_iff.mp hrun
    refine ⟨_, rfl, List.cons_ne_nil _ _, ?_⟩
    rw [List.forall_mem_cons]
    refine ⟨h.yields _ _ _ hfirst, ?_⟩
    refine chain_induction (motive := fun _ vs _ => ∀ w ∈ vs, kind w) (fun _ => by simp) ?_ mid
    intro text w after ws rest hnext ih
    obtain ⟨place, -, helement⟩ := Option.bind_eq_some_iff.mp hnext
    exact List.forall_mem_cons.mpr ⟨h.yields _ _ _ helement, ih⟩
  accepts inner f happlies := by
    cases happlies with
    | element happlies => exact h.accepts inner f happlies
    | separator happlies => exact (hseparator _ rfl).accepts inner f happlies

variable {inner : Pattern α} {f : α → Option α}

theorem filterMap_of_excused (h : Typed excused inner kind)
    (haccepts : ∀ v, kind v → (∃ w, f v = some w) ∨ excused f v)
    (hresult : ∀ v w, kind v → f v = some w → result w) :
    Typed excused (filterMap inner f) result where
  yields text v rest hrun := by
    obtain ⟨w, hinner, hw⟩ := run_filterMap_eq_some_iff.mp hrun
    exact hresult w v (h.yields _ _ _ hinner) hw
  accepts innermost g happlies := by
    cases happlies with
    | here => exact fun text v rest hrun => haccepts v (h.yields _ _ _ hrun)
    | filterMap happlies => exact h.accepts innermost g happlies

theorem filterMap (h : Typed excused inner kind)
    (hf : ∀ v, kind v → ∃ w, f v = some w ∧ result w) :
    Typed excused (filterMap inner f) result := by
  refine h.filterMap_of_excused ?_ ?_
  · intro v hv
    obtain ⟨w, hw, -⟩ := hf v hv
    exact .inl ⟨w, hw⟩
  · intro v w hv hw
    obtain ⟨u, hu, hresult⟩ := hf v hv
    obtain rfl := Option.some.inj (hw.symm.trans hu)
    exact hresult

end Typed

end TableQuery.Pattern
