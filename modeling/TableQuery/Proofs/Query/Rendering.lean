import TableQuery.Proofs.Binary64.Order
import TableQuery.Proofs.Command.Rendering
import TableQuery.Proofs.Json.Injective

/-!
The text of a query tells the query. Nothing marks the kind of an operand or of a field
list in the text, but their documents have different shapes: a column is an object, which
no literal is, and all columns are a string, which no list of columns is. So equal texts
come from equal queries, as far as the text can tell: the two zeros are written alike, and
they are equal numbers.
-/

namespace TableQuery

/-- The value is no number without a text. -/
def Value.IsFinite : Value → Prop
  | number x => x.isFinite = true
  | _ => True

namespace Operand

/-- The same column, or equal literals. -/
def equals : Operand → Operand → Bool
  | field a, field b => a = b
  | literal a, literal b => a.equals b
  | _, _ => false

def IsFinite : Operand → Prop
  | field _ => True
  | literal value => value.IsFinite

end Operand

def Condition.equals (a b : Condition) : Bool :=
  a.left.equals b.left && a.operator = b.operator && a.right.equals b.right

namespace Query

/-- The same clauses, with equal literals in the condition. -/
def equals (a b : Query) : Bool :=
  a.select = b.select && a.joins = b.joins &&
    match a.condition, b.condition with
    | none, none => true
    | some c, some d => c.equals d
    | _, _ => false

def HasFiniteLiterals (query : Query) : Prop :=
  ∀ condition ∈ query.condition, condition.left.IsFinite ∧ condition.right.IsFinite

end Query

namespace Binary64

theorem rank?_mergeZeros (x : Binary64) : x.mergeZeros.rank? = x.rank? := by
  cases x with
  | nan => rfl
  | signed negative code =>
      rw [mergeZeros]
      split
      · rename_i hcode
        simp [zero, rank?, hcode]
      · rfl

theorem equals_of_mergeZeros_eq {x y : Binary64} (hx : x.isFinite = true)
    (h : x.mergeZeros = y.mergeZeros) : x.equals y = true := by
  cases x with
  | nan => exact absurd hx (by decide)
  | signed negative code =>
      have hrank : (signed negative code).rank? = y.rank? := by
        rw [← rank?_mergeZeros, h, rank?_mergeZeros]
      exact beq_iff_eq.mpr (order?_eq_some_iff.mpr ⟨_, _, rfl, hrank.symm, Std.compare_self⟩)

end Binary64

namespace Value

theorem toDocument_injective {a b : Value} (h : a.toDocument = b.toDocument) : a = b := by
  cases a <;> cases b <;> simp_all [toDocument]

theorem mapNumbers_toDocument (value : Value) :
    value.toDocument.mapNumbers Json.shown = value.reloaded.toDocument := by
  cases value <;> rfl

theorem reloaded_number {x : Binary64} (h : (number x).IsFinite) :
    (number x).reloaded = number x.mergeZeros :=
  if_pos h

theorem equals_of_reloaded_eq {a b : Value} (ha : a.IsFinite) (hb : b.IsFinite)
    (h : a.reloaded = b.reloaded) : a.equals b = true := by
  cases a with
  | number x =>
      rw [reloaded_number ha] at h
      cases b with
      | number y =>
          rw [reloaded_number hb, number.injEq] at h
          exact Binary64.equals_of_mergeZeros_eq ha h
      | null | boolean _ | string _ => simp [reloaded] at h
  | null | boolean _ | string _ =>
      cases b with
      | number y =>
          rw [reloaded_number hb] at h
          simp [reloaded] at h
      | null | boolean _ | string _ => simp_all [reloaded, equals]

end Value

/-! ### Clauses -/

section Clauses

variable (f : Binary64 → Document)

theorem FieldRef.mapNumbers_toDocument (ref : FieldRef) :
    ref.toDocument.mapNumbers f = ref.toDocument := rfl

theorem FieldList.mapNumbers_toDocument : ∀ fields : FieldList,
    fields.toDocument.mapNumbers f = fields.toDocument
  | .wildcard => rfl
  | .fields refs => by
      rw [toDocument, Document.mapNumbers_array, List.map_map]
      rfl

theorem Select.mapNumbers_toDocument (clause : Select) :
    clause.toDocument.mapNumbers f = clause.toDocument := by
  rw [toDocument, Document.mapNumbers_object, List.map_cons, List.map_cons, List.map_nil]
  simp only [FieldList.mapNumbers_toDocument, Document.mapNumbers]

theorem Join.mapNumbers_toDocument (clause : Join) :
    clause.toDocument.mapNumbers f = clause.toDocument := rfl

theorem Condition.mapNumbers_toDocument (condition : Condition) :
    condition.toDocument.mapNumbers f = .object [
      ("left", condition.left.toDocument.mapNumbers f),
      ("right", condition.right.toDocument.mapNumbers f),
      ("operator", condition.operator.toDocument)] := rfl

theorem Query.mapNumbers_toDocument (query : Query) :
    query.toDocument.mapNumbers f = .object [
      ("select", query.select.toDocument),
      ("join", .array (query.joins.map Join.toDocument)),
      ("where", ((query.condition.map Condition.toDocument).getD .null).mapNumbers f)] := by
  have hjoins : (query.joins.map Join.toDocument).map (Document.mapNumbers f) =
      query.joins.map Join.toDocument := by
    rw [List.map_map]
    rfl
  rw [toDocument, Document.mapNumbers_object, List.map_cons, List.map_cons, List.map_cons,
    List.map_nil]
  simp only [Select.mapNumbers_toDocument, Document.mapNumbers_array, hjoins]

end Clauses

theorem FieldRef.toDocument_injective {a b : FieldRef} (h : a.toDocument = b.toDocument) :
    a = b := by
  cases a
  cases b
  simpa [toDocument] using h

theorem CompareOp.toDocument_injective {a b : CompareOp} (h : a.toDocument = b.toDocument) :
    a = b := by
  cases a <;> cases b <;> first | rfl | simp [toDocument, symbol] at h

theorem FieldList.toDocument_injective {a b : FieldList} (h : a.toDocument = b.toDocument) :
    a = b := by
  cases a with
  | wildcard =>
      cases b with
      | wildcard => rfl
      | fields others => simp [toDocument] at h
  | fields refs =>
      cases b with
      | wildcard => simp [toDocument] at h
      | fields others =>
          rw [toDocument, toDocument, Document.array.injEq] at h
          have hinjective : Function.Injective FieldRef.toDocument :=
            fun _ _ => FieldRef.toDocument_injective
          exact congrArg fields (List.map_injective_iff.mpr hinjective h)

theorem Select.toDocument_injective {a b : Select} (h : a.toDocument = b.toDocument) : a = b := by
  cases a
  cases b
  simp only [toDocument, Document.object.injEq, List.cons.injEq, Prod.mk.injEq, true_and,
    Document.string.injEq, and_true] at h
  rw [FieldList.toDocument_injective h.1, h.2]

theorem Join.toDocument_injective {a b : Join} (h : a.toDocument = b.toDocument) : a = b := by
  cases a
  cases b
  simp only [toDocument, Document.object.injEq, List.cons.injEq, Prod.mk.injEq, true_and,
    Document.string.injEq, Document.array.injEq, and_true] at h
  rw [h.1, FieldRef.toDocument_injective h.2.1, FieldRef.toDocument_injective h.2.2]

/-- The object of a column is no literal. -/
theorem Operand.equals_of_mapNumbers_eq {a b : Operand} (ha : a.IsFinite) (hb : b.IsFinite)
    (h : a.toDocument.mapNumbers Json.shown = b.toDocument.mapNumbers Json.shown) :
    a.equals b = true := by
  have hmixed (ref : FieldRef) (value : Value) :
      ref.toDocument ≠ value.reloaded.toDocument := by
    cases value.reloaded <;> simp [FieldRef.toDocument, Value.toDocument]
  cases a with
  | field ref =>
      cases b with
      | field other => exact decide_eq_true (FieldRef.toDocument_injective h)
      | literal value =>
          simp only [toDocument, FieldRef.mapNumbers_toDocument, Value.mapNumbers_toDocument] at h
          exact absurd h (hmixed ref value)
  | literal value =>
      simp only [toDocument, Value.mapNumbers_toDocument] at h
      cases b with
      | field ref => exact absurd h.symm (hmixed ref value)
      | literal other =>
          simp only [Value.mapNumbers_toDocument] at h
          exact Value.equals_of_reloaded_eq ha hb (Value.toDocument_injective h)

theorem Condition.equals_of_mapNumbers_eq {a b : Condition}
    (ha : a.left.IsFinite ∧ a.right.IsFinite) (hb : b.left.IsFinite ∧ b.right.IsFinite)
    (h : a.toDocument.mapNumbers Json.shown = b.toDocument.mapNumbers Json.shown) :
    a.equals b = true := by
  simp only [mapNumbers_toDocument, Document.object.injEq, List.cons.injEq, Prod.mk.injEq,
    true_and, and_true] at h
  obtain ⟨hleft, hright, hoperator⟩ := h
  have hoperators := decide_eq_true (CompareOp.toDocument_injective hoperator)
  rw [equals, Operand.equals_of_mapNumbers_eq ha.1 hb.1 hleft,
    Operand.equals_of_mapNumbers_eq ha.2 hb.2 hright, hoperators]
  rfl

namespace Query

variable {a b : Query}

/-- Null is no condition. -/
theorem equals_of_mapNumbers_eq (ha : a.HasFiniteLiterals) (hb : b.HasFiniteLiterals)
    (h : a.toDocument.mapNumbers Json.shown = b.toDocument.mapNumbers Json.shown) :
    a.equals b = true := by
  simp only [mapNumbers_toDocument, Document.object.injEq, List.cons.injEq, Prod.mk.injEq,
    Document.array.injEq, true_and, and_true] at h
  obtain ⟨hselect, hjoins, hwhere⟩ := h
  have hjoin : Function.Injective Join.toDocument := fun _ _ => Join.toDocument_injective
  have hclauses : (decide (a.select = b.select) && decide (a.joins = b.joins)) = true := by
    rw [Select.toDocument_injective hselect, List.map_injective_iff.mpr hjoin hjoins]
    simp
  rw [equals, hclauses, Bool.true_and]
  cases hleft : a.condition with
  | none =>
      cases hright : b.condition with
      | none => rfl
      | some d =>
          rw [hleft, hright] at hwhere
          simp [Document.mapNumbers, Condition.mapNumbers_toDocument] at hwhere
  | some c =>
      cases hright : b.condition with
      | none =>
          rw [hleft, hright] at hwhere
          simp [Document.mapNumbers, Condition.mapNumbers_toDocument] at hwhere
      | some d =>
          rw [hleft, hright] at hwhere
          exact Condition.equals_of_mapNumbers_eq (ha c hleft) (hb d hright) hwhere

theorem render_pretty_ne_render_compact (a b : Query) :
    (CheckResult.parsed a).render true ≠ (CheckResult.parsed b).render false := by
  intro h
  have htext := String.ofList_injective h
  simp [CheckResult.toDocument, toDocument, Json.write, Json.Layout.ofPretty, Json.Layout.pretty,
    Json.Layout.compact, Json.quote] at htext

/-- Queries without NaN and infinite literals that are printed alike, in whichever layout,
are equal. -/
theorem equals_of_render_eq (ha : a.HasFiniteLiterals) (hb : b.HasFiniteLiterals)
    {isPretty isPretty' : Bool}
    (h : (CheckResult.parsed a).render isPretty = (CheckResult.parsed b).render isPretty') :
    a.equals b = true := by
  have hlayout : isPretty = isPretty' := by
    cases isPretty <;> cases isPretty'
    · rfl
    · exact absurd h.symm (render_pretty_ne_render_compact b a)
    · exact absurd h (render_pretty_ne_render_compact a b)
    · rfl
  subst hlayout
  exact equals_of_mapNumbers_eq ha hb
    (Json.mapNumbers_shown_of_render (a.nestsWithin_toDocument 122) h)

/-- Two conditions that differ in the sign of zero only. -/
def zeroQuery (negative : Bool) : Query where
  select := ⟨.fields [⟨"t", "x"⟩], "t"⟩
  joins := [⟨"u", ⟨"t", "x"⟩, ⟨"u", "y"⟩⟩]
  condition := some ⟨.field ⟨"t", "x"⟩, .less, .literal (.number (.signed negative 0))⟩

theorem equals_of_render_eq_zeros :
    (CheckResult.parsed (zeroQuery false)).render true =
        (CheckResult.parsed (zeroQuery true)).render true ∧
      zeroQuery false ≠ zeroQuery true ∧ (zeroQuery false).equals (zeroQuery true) = true := by
  have hzero (negative : Bool) : (Binary64.signed negative 0).isFinite = true := by
    cases negative <;> decide +kernel
  have hfinite (negative : Bool) : (zeroQuery negative).HasFiniteLiterals := by
    intro condition hcondition
    obtain rfl := Option.some.inj hcondition
    exact ⟨trivial, hzero negative⟩
  have htext : Json.numberText (.signed false 0) = Json.numberText (.signed true 0) := by
    decide +kernel
  have hrender : (CheckResult.parsed (zeroQuery false)).render true =
      (CheckResult.parsed (zeroQuery true)).render true := by
    simp only [CheckResult.render, CheckResult.toDocument, Document.render, zeroQuery, toDocument,
      Option.map_some, Option.getD_some, Condition.toDocument, Operand.toDocument,
      Value.toDocument, Json.write, Json.writeMembers, htext]
  exact ⟨hrender, by decide, equals_of_render_eq (hfinite false) (hfinite true) hrender⟩

end Query

end TableQuery
