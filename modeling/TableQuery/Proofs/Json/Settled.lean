import TableQuery.Json.Document
import TableQuery.Proofs.Keyed.Repeated

/-!
Objects that repeat names. A text can give several members of an object the same
name, and the document that is meant keeps each name in its first place with its
last value, in all objects however deep they are. In such a document no object
repeats a name, and nothing is left to settle.
-/

namespace TableQuery

mutual

/-- In every object each name is kept once, in its first place with its last
value. -/
def Document.settled : Document → Document
  | .array items => .array (Json.settledItems items)
  | .object members => .object (Keyed.ofPairs (Json.settledMembers members))
  | .null => .null
  | .boolean b => .boolean b
  | .number x => .number x
  | .string s => .string s

def Json.settledItems : List Document → List Document
  | [] => []
  | item :: items => item.settled :: Json.settledItems items

def Json.settledMembers : List (String × Document) → List (String × Document)
  | [] => []
  | (name, value) :: members => (name, value.settled) :: Json.settledMembers members

end

namespace Json

theorem settledItems_eq_map (items : List Document) :
    settledItems items = items.map Document.settled := by
  induction items with
  | nil => rfl
  | cons item items ih => rw [settledItems, ih, List.map_cons]

theorem settledMembers_eq_map (members : List (String × Document)) :
    settledMembers members = members.map fun (name, value) => (name, value.settled) := by
  induction members with
  | nil => rfl
  | cons member members ih => rw [settledMembers, ih, List.map_cons]

end Json

namespace Document

theorem settled_array (items : List Document) :
    (array items).settled = array (items.map settled) := by
  rw [settled, Json.settledItems_eq_map]

theorem settled_object (members : List (String × Document)) :
    (object members).settled =
      object (Keyed.ofPairs (members.map fun (name, value) => (name, value.settled))) := by
  rw [settled, Json.settledMembers_eq_map]

theorem settled_object_repeated (members : List (String × Document)) :
    ∃ kept, (object members).settled = object kept ∧
      kept.map Prod.fst = (members.map Prod.fst).eraseDups ∧
      ∀ name, kept.lookup name = (members.reverse.lookup name).map settled := by
  refine ⟨_, settled_object members, ?_, fun name => ?_⟩
  · have hkeys := Keyed.keys_ofPairs (members.map fun (name, value) => (name, value.settled))
    rwa [Keyed.keys_map] at hkeys
  · rw [Keyed.lookup_ofPairs, ← List.map_reverse]
    exact Keyed.lookup_map settled members.reverse name

/-- The documents differ in one value, at any depth, and a later member of the same object
has the name of that value. -/
inductive DifferOverwritten : Document → Document → Prop
  | here (before middle after : List (String × Document)) (name : String)
      (value other last : Document) :
      DifferOverwritten (object (before ++ (name, value) :: (middle ++ (name, last) :: after)))
        (object (before ++ (name, other) :: (middle ++ (name, last) :: after)))
  | item {value other : Document} (before after : List Document) :
      DifferOverwritten value other →
      DifferOverwritten (array (before ++ value :: after)) (array (before ++ other :: after))
  | member {value other : Document} (before after : List (String × Document)) (name : String) :
      DifferOverwritten value other →
      DifferOverwritten (object (before ++ (name, value) :: after))
        (object (before ++ (name, other) :: after))

theorem settled_of_differOverwritten {document document' : Document}
    (h : DifferOverwritten document document') : document.settled = document'.settled := by
  induction h with
  | here before middle after name value other last =>
      simp only [settled_object, List.map_append, List.map_cons]
      rw [Keyed.ofPairs_overwritten _ _ _ _ _ other.settled]
  | item before after _ ih => simp only [settled_array, List.map_append, List.map_cons, ih]
  | member before after name _ ih =>
      simp only [settled_object, List.map_append, List.map_cons, ih]

end Document

mutual

theorem Document.settled_settled : ∀ document : Document,
    document.settled.settled = document.settled
  | .array items => by
      rw [Document.settled_array, Document.settled_array, Json.map_settled_settled items]
  | .object members => by
      have hnodup := Keyed.nodup_keys_ofPairs (members.map fun (name, value) =>
        (name, value.settled))
      rw [Document.settled_object, Document.settled_object, Keyed.map_ofPairs,
        Json.map_settled_settled_members members, Keyed.ofPairs_of_nodup hnodup]
  | .null => rfl
  | .boolean _ => rfl
  | .number _ => rfl
  | .string _ => rfl

theorem Json.map_settled_settled : ∀ items : List Document,
    (items.map Document.settled).map Document.settled = items.map Document.settled
  | [] => rfl
  | item :: items => by
      rw [List.map_cons, List.map_cons, Document.settled_settled item,
        Json.map_settled_settled items]

theorem Json.map_settled_settled_members : ∀ members : List (String × Document),
    (members.map fun (name, value) => (name, value.settled)).map
        (fun (name, value) => (name, value.settled)) =
      members.map fun (name, value) => (name, value.settled)
  | [] => rfl
  | (name, value) :: members => by
      rw [List.map_cons, List.map_cons, Json.map_settled_settled_members members]
      simp only [Document.settled_settled value]

end

namespace Document

theorem settled_of_mem_items {items : List Document} (h : (array items).settled = array items) :
    ∀ item ∈ items, item.settled = item := by
  rw [settled_array, array.injEq] at h
  exact List.map_inj_left.mp (h.trans items.map_id.symm)

theorem nodup_of_settled {members : List (String × Document)}
    (h : (object members).settled = object members) : (Keyed.keys members).Nodup := by
  rw [settled_object, object.injEq] at h
  rw [← h]
  exact Keyed.nodup_keys_ofPairs _

theorem settled_of_mem_members {members : List (String × Document)}
    (h : (object members).settled = object members) :
    ∀ member ∈ members, member.2.settled = member.2 := by
  have hnodup := nodup_of_settled h
  rw [settled_object, object.injEq, Keyed.ofPairs_of_nodup (by rwa [Keyed.keys_map])] at h
  intro member hmember
  exact congrArg Prod.snd (List.map_inj_left.mp (h.trans members.map_id.symm) member hmember)

theorem settled_array_of_forall {items : List Document} (h : ∀ item ∈ items, item.settled = item) :
    (array items).settled = array items := by
  rw [settled_array, List.map_congr_left h, List.map_id']

variable {members : List (String × Document)}

theorem map_settled_of_forall (h : ∀ member ∈ members, member.2.settled = member.2) :
    members.map (fun (name, value) => (name, value.settled)) = members := by
  have hmember : ∀ member ∈ members, (member.1, member.2.settled) = id member :=
    fun member hmember => congrArg (Prod.mk member.1) (h member hmember)
  rw [List.map_congr_left hmember, List.map_id]

theorem settled_object_of_nodup (hnodup : (Keyed.keys members).Nodup)
    (h : ∀ member ∈ members, member.2.settled = member.2) :
    (object members).settled = object members := by
  rw [settled_object, map_settled_of_forall h, Keyed.ofPairs_of_nodup hnodup]

theorem settled_object_ofPairs (h : ∀ member ∈ members, member.2.settled = member.2) :
    (object (Keyed.ofPairs members)).settled = object (Keyed.ofPairs members) := by
  rw [settled_object, Keyed.map_ofPairs, map_settled_of_forall h,
    Keyed.ofPairs_of_nodup (Keyed.nodup_keys_ofPairs members)]

end Document

end TableQuery
