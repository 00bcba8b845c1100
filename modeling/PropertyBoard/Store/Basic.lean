import PropertyBoard.Store.Row

/-!
# PropertyBoard.Store.Basic

The store: all tables with their rows.

* `Store`: the tables. Rows stand in the order in which they were added.
* `insertField`, `insertProperty`, `insertView`, `insertMember`, `insertChannel`, `insertRole`,
  `insertPost`: a new row. Keys are unique, an object has one property for a field, a property
  belongs to a field that exists and a member to a view that exists.
* `keepFields`, `keepViews`: properties go with their field and members with their view.
* `joined`: properties beside the rows of their fields.
-/

namespace PropertyBoard

structure Store where
  fields : List Store.FieldRow := []
  properties : List Store.PropertyRow := []
  views : List Store.ViewRow := []
  members : List Member := []
  channels : List Store.ChannelRow := []
  roles : List Store.RoleRow := []
  posts : List Post := []
  deriving Repr, DecidableEq, Inhabited

namespace Store

def hasField (s : Store) (id : String) : Bool :=
  s.fields.any fun r => r.id = id

def hasView (s : Store) (id : String) : Bool :=
  s.views.any fun r => r.id = id

/-- Whether two properties cannot stand beside each other. -/
def PropertyRow.clashes (a b : PropertyRow) : Bool :=
  a.id = b.id || (a.objectId = b.objectId && a.fieldId = b.fieldId)

def insertField (s : Store) (r : FieldRow) : Except StorageError Store :=
  if s.hasField r.id then .error (.duplicateKey FieldRow.table)
  else .ok { s with fields := s.fields ++ [r] }

def insertProperty (s : Store) (r : PropertyRow) : Except StorageError Store :=
  if s.properties.any r.clashes then .error (.duplicateKey PropertyRow.table)
  else if !s.hasField r.fieldId then .error (.danglingReference PropertyRow.table)
  else .ok { s with properties := s.properties ++ [r] }

def insertView (s : Store) (r : ViewRow) : Except StorageError Store :=
  if s.hasView r.id then .error (.duplicateKey ViewRow.table)
  else .ok { s with views := s.views ++ [r] }

def insertMember (s : Store) (r : Member) : Except StorageError Store :=
  if s.members.contains r then .error (.duplicateKey MemberRow.table)
  else if !s.hasView r.viewId then .error (.danglingReference MemberRow.table)
  else .ok { s with members := s.members ++ [r] }

def insertChannel (s : Store) (r : ChannelRow) : Except StorageError Store :=
  if s.channels.any fun c => c.id = r.id then .error (.duplicateKey ChannelRow.table)
  else .ok { s with channels := s.channels ++ [r] }

def insertRole (s : Store) (r : RoleRow) : Except StorageError Store :=
  if s.roles.any fun m => m.channelId = r.channelId && m.userId = r.userId then
    .error (.duplicateKey RoleRow.table)
  else .ok { s with roles := s.roles ++ [r] }

def insertPost (s : Store) (r : Post) : Except StorageError Store :=
  if s.posts.any fun p => p.id = r.id then .error (.duplicateKey PostRow.table)
  else .ok { s with posts := s.posts ++ [r] }

/-- The store with these fields left, and of the properties those that still have a field. -/
def keepFields (s : Store) (fields : List FieldRow) : Store :=
  { s with
    fields
    properties := s.properties.filter fun p => fields.any fun f => f.id = p.fieldId }

/-- The store with these views left, and of the members those that still have a view. -/
def keepViews (s : Store) (views : List ViewRow) : Store :=
  { s with
    views
    members := s.members.filter fun m => views.any fun v => v.id = m.viewId }

/-- Properties beside their fields. -/
def propertyFields : Sql.Join PropertyRow FieldRow where
  left := PropertyRow.table
  right := FieldRow.table
  leftColumn := PropertyRow.fieldColumn
  rightColumn := FieldRow.idColumn

def joined (s : Store) : List (PropertyRow × FieldRow) :=
  propertyFields.rows s.properties s.fields

theorem holds_propertyFields (p : PropertyRow) (f : FieldRow) :
    propertyFields.on.holds (p, f) = decide (f.id = p.fieldId) := by
  show decide (Sql.Cell.text p.fieldId = .text f.id) = _
  simp only [Sql.Cell.text.injEq, eq_comm]

theorem joined_eq (s : Store) :
    s.joined = s.properties.flatMap fun p =>
      (s.fields.filter fun f => f.id = p.fieldId).map fun f => (p, f) := by
  simp only [joined, Sql.Join.rows, List.filter_map, Function.comp_def, holds_propertyFields]

theorem mem_joined {s : Store} {p : PropertyRow} {f : FieldRow} :
    (p, f) ∈ s.joined ↔ p ∈ s.properties ∧ f ∈ s.fields ∧ f.id = p.fieldId := by
  rw [joined, Sql.Join.mem_rows, holds_propertyFields, decide_eq_true_eq]

/-- A property is added exactly if it clashes with none and its field is there. -/
theorem insertProperty_eq_ok_iff {s s' : Store} {r : PropertyRow} :
    s.insertProperty r = .ok s' ↔
      s.properties.any r.clashes = false ∧ s.hasField r.fieldId = true ∧
        s' = { s with properties := s.properties ++ [r] } := by
  unfold insertProperty
  cases hc : s.properties.any r.clashes with
  | true => simp
  | false =>
    cases hf : s.hasField r.fieldId with
    | false => simp
    | true =>
      constructor
      · intro h
        cases h
        exact ⟨rfl, rfl, rfl⟩
      · rintro ⟨_, _, rfl⟩
        rfl

end Store
end PropertyBoard
