import SchemaCut.Proofs.Reading.Records
import SchemaCut.Schema

/-!
# Reading schemas

A schema document is a record of three maps.  What a tree means as a schema is said member by
member: a section joins what is known if it has not been given before, and any other member is
passed over.

* `ofDocument_text` : reading a written schema gives what it means.
* `meaning?_of_entries` : a document that lists the three sections of a schema means the schema.
-/

namespace SchemaCut
namespace Schema

open Json

/-- The sections of a document that are known. -/
abbrev Sections := PerKind (Option (NameMap Json))

/-- What is known behind a section that is given by a value. -/
def join? (field : Json.Field Sections) (s : Sections) (v : Json) : Option Sections := do
  let k ← Kind.ofSection? field.name
  let m ← v.map?
  return s.modify k fun _ => some m

/-- What is known behind a section, for a reader that may open `room` containers. -/
def sectionGiven? (room : Nat) (field : Json.Field Sections) (s : Sections) (t : Tree) :
    Option Sections :=
  (t.value? room).bind (join? field s)

/-- The schema that a tree means. -/
def meaning? (t : Tree) : Option Schema := document.value? sectionGiven? maxDepth t

lemma join?_sectionField (k : Kind) (s : Sections) (v : Json) :
    join? (sectionField k) s v = v.map?.map fun m => s.modify k fun _ => some m := by
  have hname : Kind.ofSection? (sectionField k).name = some k := Kind.ofSection?_sectionName k
  rw [join?, hname]
  cases v.map? <;> rfl

lemma sectionGiven?_sectionField (room : Nat) (k : Kind) (s : Sections) (t : Tree) :
    sectionGiven? room (sectionField k) s t =
      (t.map? room).map fun m => s.modify k fun _ => some m := by
  rw [sectionGiven?, Tree.map?, Option.map_bind]
  exact congrArg _ (funext (join?_sectionField k s))

lemma fieldTakes (room : Nat) (t : Tree) {field : Json.Field Sections}
    (hfield : field ∈ document.fields) : Record.FieldTakes room (sectionGiven? room) t field := by
  obtain ⟨k, -, rfl⟩ := List.mem_map.1 hfield
  intro s w tail _
  rw [sectionGiven?_sectionField]
  exact (takes_readMap t room w tail).map (fun _ => rfl) fun _ => rfl

/-- Reading a written schema gives what it means. -/
theorem ofDocument_text (d : Spaced Tree) : (ofDocument d.text).toOption = meaning? d.value :=
  readAll_text d (Record.takes_record (fun room _ hfield t => fieldTakes room t hfield) d.value
    maxDepth d.before d.after.chars)

/-! ## Members of a document -/

/-- The field of a document with a given name. -/
lemma find?_fields (n : String) :
    document.fields.find? (·.name = n) = (Kind.ofSection? n).map sectionField := by
  rw [document, List.find?_map, Kind.ofSection?]
  rfl

/-- What is known behind a member with a given name: a new section joins, and a member that is none
is passed over. -/
def named? (s : Sections) (n : String) (m? : Option (NameMap Json)) : Option Sections :=
  match Kind.ofSection? n with
  | some k => if (s.get k).isSome then none else m?.map fun m => s.modify k fun _ => some m
  | none => some s

/-- What is known behind a member of a document. -/
abbrev member? (room : Nat) : Sections → Member → Option Sections :=
  Member.next? (document.member? (sectionGiven? room))

lemma member?_eq (room : Nat) (s : Sections) (m : Member) :
    member? room s m =
      m.1.value.value?.bind fun n => named? s n (m.2.value.map? room) := by
  rw [member?, Member.next?]
  refine congrArg _ (funext fun n => ?_)
  rw [Record.member?, find?_fields, named?]
  cases Kind.ofSection? n with
  | none => rfl
  | some k =>
    simp only [Option.map_some, sectionGiven?_sectionField]
    rfl

/-- Members whose values are known can be joined as values. -/
lemma foldlM_member? {room : Nat} {members : List Member} {es : List (String × Json)}
    (hes : Tree.entries? room members = some es) (s : Sections) :
    members.foldlM (member? room) s = es.foldlM (fun s e => named? s e.1 e.2.map?) s := by
  induction members generalizing es s with
  | nil =>
    cases hes
    rfl
  | cons m members ih =>
    obtain ⟨name, before, t, after⟩ := m
    simp only [Tree.entries?, bind, Option.bind_eq_some_iff] at hes
    obtain ⟨n, hn, v, hv, es', hes', heq⟩ := hes
    cases heq
    have hmember : member? room s (name, ⟨before, t, after⟩) = named? s n v.map? := by
      simp only [member?_eq, hn, Tree.map?, hv, Option.bind_some]
    rw [List.foldlM_cons, List.foldlM_cons, hmember]
    exact congrArg _ (funext fun s' => ih hes' s')

/-- A document that lists the three sections of a schema means the schema. -/
theorem meaning?_of_entries {s : Schema} {members : List Member} (close : Space)
    (hes : Tree.entries? 126 members =
      some (Kind.all.map fun k => (k.sectionName, .obj (s.definitions k).entries))) :
    meaning? (.object members close) = some s := by
  change (do
    let known ← members.foldlM (member? 126) (PerKind.const none)
    (document.ofMembers known).toOption) = some s
  have hfold : (Kind.all.map fun k => (k.sectionName, Json.obj (s.definitions k).entries)).foldlM
      (fun known e => named? known e.1 e.2.map?) (PerKind.const none) =
        some (s.byKind.map fun _ m => some m) := by
    simp [Kind.all, named?, map?_obj_entries, definitions, PerKind.const, PerKind.get,
      PerKind.modify, PerKind.map]
  rw [foldlM_member? hes, hfold]
  rfl

end Schema
end SchemaCut
