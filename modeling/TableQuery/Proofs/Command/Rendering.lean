import TableQuery.Command.Check
import TableQuery.Proofs.Database.RoundTrip
import TableQuery.Proofs.Json.Rereading

/-!
The result of a command as text. A table is an array of objects and a query a tree of
fixed shape, so neither nests deep, and neither repeats a name. Both layouts of a result
are texts of one document: of the rows or the query as they are, to a reader that rounds
each decimal once, and of the same with its numbers reread to the reader of the program.
Rereading changes few numbers: those that have no text or no text of their own, and those
whose digits that reader does not scale back to them.
-/

namespace TableQuery

theorem FieldRef.settled_toDocument (ref : FieldRef) : ref.toDocument.settled = ref.toDocument := by
  refine Document.settled_object_of_nodup (by simp [Keyed.keys]) ?_
  rw [List.forall_mem_cons, List.forall_mem_singleton]
  exact ⟨rfl, rfl⟩

theorem Operand.settled_toDocument : ∀ operand : Operand,
    operand.toDocument.settled = operand.toDocument
  | .field ref => ref.settled_toDocument
  | .literal value => value.settled_toDocument

theorem Condition.settled_toDocument (condition : Condition) :
    condition.toDocument.settled = condition.toDocument := by
  refine Document.settled_object_of_nodup (by simp [Keyed.keys]) ?_
  rw [List.forall_mem_cons, List.forall_mem_cons, List.forall_mem_singleton]
  exact ⟨condition.left.settled_toDocument, condition.right.settled_toDocument, rfl⟩

theorem FieldList.settled_toDocument : ∀ fields : FieldList,
    fields.toDocument.settled = fields.toDocument
  | .wildcard => rfl
  | .fields _ =>
      Document.settled_array_of_forall
        (List.forall_mem_map.mpr fun ref _ => ref.settled_toDocument)

theorem Select.settled_toDocument (clause : Select) :
    clause.toDocument.settled = clause.toDocument := by
  refine Document.settled_object_of_nodup (by simp [Keyed.keys]) ?_
  rw [List.forall_mem_cons, List.forall_mem_singleton]
  exact ⟨clause.fields.settled_toDocument, rfl⟩

theorem Join.settled_toDocument (clause : Join) :
    clause.toDocument.settled = clause.toDocument := by
  refine Document.settled_object_of_nodup (by simp [Keyed.keys]) ?_
  rw [List.forall_mem_cons, List.forall_mem_singleton]
  refine ⟨rfl, Document.settled_array_of_forall ?_⟩
  rw [List.forall_mem_cons, List.forall_mem_singleton]
  exact ⟨clause.left.settled_toDocument, clause.right.settled_toDocument⟩

theorem Query.settled_toDocument (query : Query) :
    query.toDocument.settled = query.toDocument := by
  refine Document.settled_object_of_nodup (by simp [Keyed.keys]) ?_
  rw [List.forall_mem_cons, List.forall_mem_cons, List.forall_mem_singleton]
  refine ⟨query.select.settled_toDocument, Document.settled_array_of_forall
    (List.forall_mem_map.mpr fun clause _ => clause.settled_toDocument), ?_⟩
  cases query.condition with
  | none => rfl
  | some condition => exact condition.settled_toDocument

section Depth

variable (levels : Nat)

theorem Value.nestsWithin_toDocument (value : Value) : value.toDocument.NestsWithin levels := by
  cases value <;> simp [toDocument, Document.NestsWithin]

theorem Row.nestsWithin_toDocument (row : Row) : row.toDocument.NestsWithin (levels + 1) :=
  List.forall_mem_map.mpr fun column _ => column.2.nestsWithin_toDocument levels

theorem Table.nestsWithin_toDocument (table : Table) :
    table.toDocument.NestsWithin (levels + 2) :=
  List.forall_mem_map.mpr fun row _ => row.nestsWithin_toDocument levels

theorem Document.nestsWithin_string (s : String) : (Document.string s).NestsWithin levels := by
  simp [NestsWithin]

theorem FieldRef.nestsWithin_toDocument (ref : FieldRef) :
    ref.toDocument.NestsWithin (levels + 1) := by
  refine List.forall_mem_cons.mpr ⟨?_, List.forall_mem_singleton.mpr ?_⟩
  · exact Document.nestsWithin_string levels ref.table
  · exact Document.nestsWithin_string levels ref.column

theorem Operand.nestsWithin_toDocument : ∀ operand : Operand,
    operand.toDocument.NestsWithin (levels + 1)
  | .field ref => ref.nestsWithin_toDocument levels
  | .literal value => value.nestsWithin_toDocument (levels + 1)

theorem Condition.nestsWithin_toDocument (condition : Condition) :
    condition.toDocument.NestsWithin (levels + 2) := by
  refine List.forall_mem_cons.mpr ⟨?_, List.forall_mem_cons.mpr ⟨?_,
    List.forall_mem_singleton.mpr ?_⟩⟩
  · exact condition.left.nestsWithin_toDocument levels
  · exact condition.right.nestsWithin_toDocument levels
  · exact Document.nestsWithin_string (levels + 1) condition.operator.symbol

theorem FieldList.nestsWithin_toDocument : ∀ fields : FieldList,
    fields.toDocument.NestsWithin (levels + 2)
  | .wildcard => Document.nestsWithin_string (levels + 2) "*"
  | .fields _ => List.forall_mem_map.mpr fun ref _ => ref.nestsWithin_toDocument levels

theorem Select.nestsWithin_toDocument (clause : Select) :
    clause.toDocument.NestsWithin (levels + 3) := by
  refine List.forall_mem_cons.mpr ⟨?_, List.forall_mem_singleton.mpr ?_⟩
  · exact clause.fields.nestsWithin_toDocument levels
  · exact Document.nestsWithin_string (levels + 2) clause.source

theorem Join.nestsWithin_toDocument (clause : Join) :
    clause.toDocument.NestsWithin (levels + 3) := by
  refine List.forall_mem_cons.mpr ⟨?_, List.forall_mem_singleton.mpr ?_⟩
  · exact Document.nestsWithin_string (levels + 2) clause.table
  · refine List.forall_mem_cons.mpr ⟨?_, List.forall_mem_singleton.mpr ?_⟩
    · exact clause.left.nestsWithin_toDocument levels
    · exact clause.right.nestsWithin_toDocument levels

theorem Query.nestsWithin_toDocument (query : Query) :
    query.toDocument.NestsWithin (levels + 5) := by
  refine List.forall_mem_cons.mpr ⟨?_, List.forall_mem_cons.mpr ⟨?_,
    List.forall_mem_singleton.mpr ?_⟩⟩
  · exact query.select.nestsWithin_toDocument (levels + 1)
  · exact List.forall_mem_map.mpr fun clause _ => clause.nestsWithin_toDocument levels
  · dsimp only
    cases query.condition with
    | none => simp [Document.NestsWithin]
    | some condition => exact condition.nestsWithin_toDocument (levels + 2)

end Depth

namespace CheckResult

theorem settled_toDocument : ∀ result : CheckResult, result.toDocument.settled = result.toDocument
  | parsed query => query.settled_toDocument
  | rows table => table.settled_toDocument

theorem nestsWithin_toDocument : ∀ result : CheckResult,
    result.toDocument.NestsWithin Json.maxDepth
  | parsed query => query.nestsWithin_toDocument 122
  | rows table => table.nestsWithin_toDocument 125

/-- Both layouts of a result are texts of one document. An exact reader takes the result
itself off either, as far as its numbers have texts; the reader of the program takes the
result with its numbers reread off either. -/
theorem render_reread (result : CheckResult) (isPretty : Bool) :
    Document.readExactly? (result.render isPretty) =
        some (result.toDocument.mapNumbers Json.shown) ∧
      Json.Holds (result.render isPretty) (result.toDocument.mapNumbers Json.reread) ∧
      Document.read? (result.render isPretty) =
        some (result.toDocument.mapNumbers Json.reread) ∧
      ∀ x : Binary64, Json.Rereads x :=
  have hnests := result.nestsWithin_toDocument
  have hsettled := result.settled_toDocument
  ⟨Json.readExactly?_render hnests isPretty hsettled, Json.holds_render hnests isPretty,
    Json.read?_render hnests isPretty hsettled, Json.rereads⟩

def smallNumber : CheckResult :=
  rows [Row.ofPairs [("t.x", .number (.ofBits 0x3E67026CCEEA590B))]]

/-- Its digits are scaled to the number after it. -/
theorem render_smallNumber :
    smallNumber.render false = "[\x7b\"t.x\":4.285848286438534e-8\x7d]" ∧
      Document.read? (smallNumber.render false) ≠
        some (smallNumber.toDocument.mapNumbers Json.shown) := by
  have hread : Json.readNumber? (Json.numberText (.ofBits 0x3E67026CCEEA590B)) =
      some (.ofBits 0x3E67026CCEEA590C, []) := by decide +kernel
  have hdocument (f : Binary64 → Document) : smallNumber.toDocument.mapNumbers f =
      .array [.object [("t.x", f (.ofBits 0x3E67026CCEEA590B))]] := rfl
  refine ⟨by decide +kernel, fun heq => ?_⟩
  rw [render, Json.read?_render smallNumber.nestsWithin_toDocument false
    smallNumber.settled_toDocument, hdocument, hdocument, Json.reread_of_readNumber? hread,
    Json.shown_of_isFinite (by decide +kernel)] at heq
  simp only [Option.some.injEq, Document.array.injEq, Document.object.injEq, List.cons.injEq,
    Prod.mk.injEq, Document.number.injEq, true_and, and_true] at heq
  revert heq
  decide +kernel

end CheckResult

end TableQuery
