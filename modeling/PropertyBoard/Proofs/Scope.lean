import Mathlib.Data.List.Induction
import PropertyBoard.Proofs.Objects
import PropertyBoard.Proofs.Rows

/-!
# PropertyBoard.Proofs.Scope

Where the scope of a property comes from.

* `ServiceCall.Stamps`: a call that gives all properties of an object a scope, which is the one that
  the platform has for the object at that time. `Board.Marks`: such a call, if it succeeds.
* `Board.scope_after_marks`, `Board.row_after_unmarked`: an action that marks an object gives all its
  properties one scope; any other action keeps the scope of each.
* `Board.scope_of_last_mark`: so after any run the properties of an object have the scope of the last
  action that marked it.
-/

namespace PropertyBoard

open Store

namespace ServiceCall

/-- Whether a call gives the properties of an object a scope, if it succeeds. -/
def Concerns (objectId : String) : ServiceCall → Prop
  | createProperty input _ => input.objectId = objectId
  | resyncObject id => id = objectId
  | _ => False

/-- A call gives the properties of an object the scope that the platform has for it. The type of the
object is given, or that of its first property. -/
inductive Stamps (s : Store) (objectId : String) (scope : Scope) : ServiceCall → Prop
  | create {input : PropertyInput} {userId : String} (hobject : input.objectId = objectId)
      (hscope : Platform.scopeOf s input.objectType objectId = .ok scope) :
      Stamps s objectId scope (.createProperty input userId)
  | resync {first : Property} {rest : List Property}
      (hobject : Properties.ofObject s objectId = .ok (first :: rest))
      (hscope : Platform.scopeOf s first.objectType objectId = .ok scope) :
      Stamps s objectId scope (.resyncObject objectId)

end ServiceCall

namespace Board

/-- Whether an action is a call that succeeds and concerns the scope of an object. -/
def Marks (b : Board) (objectId : String) (a : Action) : Prop :=
  ∃ c, a = .call c ∧ c.Concerns objectId ∧ (c.run.on b).1 = .ok ()

/-- Whether none of these actions marks an object. -/
def Unmarked (objectId : String) : Board → List Action → Prop
  | _, [] => True
  | b, a :: rest => ¬b.Marks objectId a ∧ Unmarked objectId (b.after a) rest

theorem unmarked_append {objectId : String} {b : Board} {actions : List Action} {a : Action}
    (h : Unmarked objectId b actions) (ha : ¬(b.run actions).Marks objectId a) :
    Unmarked objectId b (actions ++ [a]) := by
  induction actions generalizing b with
  | nil => exact ⟨ha, trivial⟩
  | cons a' rest ih => exact ⟨h.1, ih h.2 ha⟩

end Board

/-! ## One action -/

namespace Properties

/-- An object without properties to read has none at all, where each property has its field. -/
theorem no_rows_of_ofObject {s : Store} (hs : s.Keyed) {objectId : String}
    (h : ofObject s objectId = .ok []) : ∀ p ∈ s.properties, p.objectId ≠ objectId := by
  intro p hp hobject
  obtain ⟨rows, hrows, hmap⟩ := ofObject_eq_ok.1 h
  obtain ⟨found, hfound, hperm⟩ := Statement.Properties.on_ofObject objectId s.joined
  cases hrows.symm.trans hfound
  obtain ⟨r, hr, hid⟩ := hasField_iff.1 (hs.fieldOf p hp)
  have hmem : (p, r) ∈ rows := by
    rw [hperm.mem_iff, List.mem_filter]
    exact ⟨mem_joined.2 ⟨hp, hr, hid⟩, by simpa using hobject⟩
  rw [List.map_eq_nil_iff.1 hmap] at hmem
  cases hmem

end Properties

namespace Board

theorem scope_of_mem_stamped {objectId : String} {scope : Scope} {rows : List PropertyRow}
    {p : PropertyRow} (hp : p ∈ stamped objectId scope rows) (hobject : p.objectId = objectId) :
    p.scope = scope := by
  obtain ⟨old, _, rfl⟩ := mem_stamped.1 hp
  by_cases hold : old.objectId = objectId
  · rw [if_pos hold, PropertyRow.scope_stamp]
  · rw [if_neg hold] at hobject
    exact absurd hobject hold

/-- An action that marks an object gives all its properties one scope. -/
theorem scope_after_marks {b : Board} (hb : b.Reachable) {objectId : String} {a : Action}
    (ha : b.Marks objectId a) (hrow : ∃ p ∈ (b.after a).store.properties, p.objectId = objectId) :
    ∃ c scope, a = .call c ∧ c.Stamps b.store objectId scope ∧
      ∀ p ∈ (b.after a).store.properties, p.objectId = objectId → p.scope = scope := by
  obtain ⟨c, rfl, hconcerns, hok⟩ := ha
  have hon : c.run.on b = (.ok (), b.after (.call c)) := Prod.ext hok rfl
  cases c with
  | createProperty input userId =>
    have hobject : input.objectId = objectId := hconcerns
    rw [ServiceCall.run] at hon
    obtain ⟨p, hp⟩ := ServiceCall.silent_eq_ok.1 hon
    obtain ⟨f, value, scope, text, _, _, hscope, _, _, _, hb'⟩ := Properties.create_eq_ok.1 hp
    refine ⟨_, scope, rfl, .create hobject (hobject ▸ hscope), ?_⟩
    intro q hq hqobject
    rw [hb'] at hq
    exact scope_of_mem_stamped hq (hqobject.trans hobject.symm)
  | resyncObject id =>
    obtain rfl : id = objectId := hconcerns
    rw [ServiceCall.run] at hon
    obtain ⟨n, hn⟩ := ServiceCall.silent_eq_ok.1 hon
    obtain ⟨hnone, _, hb'⟩ | ⟨first, rest, scope, hobject, hscope, _, hb'⟩ :=
      Properties.resync_eq_ok.1 hn
    · -- Where there is nothing to stamp, there is no row either.
      obtain ⟨p, hp, hpobject⟩ := hrow
      rw [hb'] at hp
      exact absurd hpobject (Properties.no_rows_of_ofObject hb.keyed hnone p hp)
    · refine ⟨_, scope, rfl, .resync hobject hscope, ?_⟩
      intro q hq hqobject
      rw [hb'] at hq
      exact scope_of_mem_stamped hq hqobject
  | _ => exact hconcerns.elim

/-- Any other action brings no property of the object, and keeps the type and the scope of each. -/
theorem row_after_unmarked {b : Board} (hb : b.Reachable) {objectId : String} {a : Action}
    (ha : ¬b.Marks objectId a) {p : PropertyRow} (hp : p ∈ (b.after a).store.properties)
    (hobject : p.objectId = objectId) :
    ∃ old ∈ b.store.properties, old.objectKey = p.objectKey ∧ old.scope = p.scope := by
  rcases b.after_cases a with ⟨_, hproperties, _, _⟩ | ⟨c, rfl, hok⟩
  · rw [hproperties] at hp
    exact ⟨p, hp, rfl, rfl⟩
  · have hnot : ¬c.Concerns objectId := by
      intro hconcerns
      exact ha ⟨c, rfl, hconcerns, by rw [hok]⟩
    generalize hs : (b.after (.call c)).store = s' at hp
    have hw := ServiceCall.writes_of_ok hb.keyed.properties hok
    rw [hs] at hw
    cases hw with
    | nothing => exact ⟨p, hp, rfl, rfl⟩
    | createField => exact ⟨p, hp, rfl, rfl⟩
    | updateField =>
      obtain ⟨old, hold, _, rfl⟩ := old_of_mem_conformedTo hp
      exact ⟨old, hold, rfl, rfl⟩
    | deleteField =>
      exact ⟨p, (List.mem_filter.1 (List.mem_filter.1 hp).1).1, rfl, rfl⟩
    | @createProperty input userId text f value scope r _ _ _ _ hr _ =>
      have hne : p.objectId ≠ input.objectId := fun h => hnot (h.symm.trans hobject)
      rcases List.mem_append.1 ((mem_stamped_iff_of_ne hne).1 hp) with hold | hold
      · exact ⟨p, hold, rfl, rfl⟩
      · rw [List.mem_singleton.1 hold, hr] at hne
        exact absurd rfl hne
    | updateProperty =>
      obtain ⟨old, hold, _, rfl⟩ := old_of_mem_withValue hp
      exact ⟨old, hold, rfl, rfl⟩
    | deleteProperty => exact ⟨p, (List.mem_filter.1 hp).1, rfl, rfl⟩
    | @resyncObject id _ _ _ _ _ =>
      have hne : p.objectId ≠ id := fun h => hnot (h.symm.trans hobject)
      exact ⟨p, (mem_stamped_iff_of_ne hne).1 hp, rfl, rfl⟩
    | createView => exact ⟨p, hp, rfl, rfl⟩
    | updateView => exact ⟨p, hp, rfl, rfl⟩
    | addMember => exact ⟨p, hp, rfl, rfl⟩

/-! ## Runs -/

/-- The last action of a run that marked an object, with the scope that it gave. -/
def LastMark (source : Identifier.Source) (now : Int64) (actions : List Action) (objectId : String)
    (scope : Scope) : Prop :=
  ∃ before c after, actions = before ++ .call c :: after ∧
    (run { now, source } before).Marks objectId (.call c) ∧
    c.Stamps (run { now, source } before).store objectId scope ∧
    Unmarked objectId (run { now, source } (before ++ [.call c])) after

theorem lastMark_of_rows (source : Identifier.Source) (now : Int64) (actions : List Action)
    (objectId : String) :
    (∃ p ∈ (run { now, source } actions).store.properties, p.objectId = objectId) →
      ∃ scope, LastMark source now actions objectId scope ∧
        ∀ p ∈ (run { now, source } actions).store.properties, p.objectId = objectId →
          p.scope = scope := by
  induction actions using List.reverseRecOn with
  | nil =>
    rintro ⟨p, hp, _⟩
    cases hp
  | append_singleton actions a ih =>
    have hreach := reachable_run now actions source
    rw [run_append, run_cons, run_nil]
    by_cases ha : (run { now, source } actions).Marks objectId a
    · intro hrow
      obtain ⟨c, scope, rfl, hstamps, hall⟩ := scope_after_marks hreach ha hrow
      exact ⟨scope, ⟨actions, c, [], rfl, ha, hstamps, trivial⟩, hall⟩
    · rintro ⟨p, hp, hobject⟩
      have hback := fun (q : PropertyRow) hq hqobject =>
        row_after_unmarked hreach ha (p := q) hq hqobject
      obtain ⟨old, hold, hkey, _⟩ := hback p hp hobject
      obtain ⟨scope, ⟨before, c, after, rfl, hmarks, hstamps, hunmarked⟩, hall⟩ :=
        ih ⟨old, hold, (Prod.mk.inj hkey).1.trans hobject⟩
      refine ⟨scope, ⟨before, c, after ++ [a], by simp, hmarks, hstamps, ?_⟩, ?_⟩
      · refine unmarked_append hunmarked ?_
        rw [← run_append]
        simpa using ha
      · intro q hq hqobject
        obtain ⟨old, hold, hkey, hscope⟩ := hback q hq hqobject
        rw [← hscope]
        exact hall old hold ((Prod.mk.inj hkey).1.trans hqobject)

theorem Reachable.same_scope {b : Board} (h : b.Reachable) :
    ∀ p ∈ b.store.properties, ∀ q ∈ b.store.properties, q.objectId = p.objectId →
      q.scope = p.scope := by
  obtain ⟨source, now, actions, rfl⟩ := h
  intro p hp q hq hobject
  obtain ⟨scope, _, hall⟩ := lastMark_of_rows source now actions p.objectId ⟨p, hp, rfl⟩
  rw [hall q hq hobject, hall p hp rfl]

/-- All properties of an object have one scope: the one that the platform had for the object when
last a property of it was created or its scope renewed. So the row of an object has the channel and
the team of one of its properties. -/
theorem scope_of_last_mark (source : Identifier.Source) (now : Int64) (actions : List Action) :
    (∀ p ∈ (run { now, source } actions).store.properties,
      ∃ scope, LastMark source now actions p.objectId scope ∧
        ∀ q ∈ (run { now, source } actions).store.properties, q.objectId = p.objectId → q.scope = scope) ∧
      ∀ row ∈ (run { now, source } actions).store.objects,
        ∃ p ∈ (run { now, source } actions).store.properties, p.objectKey = (row.objectId, row.objectType) ∧
          p.channelId = row.channelId ∧ p.teamId = row.teamId := by
  constructor
  · intro p hp
    exact lastMark_of_rows source now actions p.objectId ⟨p, hp, rfl⟩
  · intro row hrow
    obtain ⟨p, hp, rfl⟩ := mem_objects.1 hrow
    obtain ⟨hchannel, hteam⟩ :=
      scope_objectRow hp ((reachable_run now actions source).same_scope p hp)
    exact ⟨p, hp, rfl, hchannel.symm, hteam.symm⟩

end Board
end PropertyBoard
