import PropertyBoard.Proofs.Rows

/-!
# PropertyBoard.Proofs.Listing

What is shown of the properties that are stored, in every board that can come about.

* `Store.map_fst_joined`: beside their fields the properties are all there, each once.
* `Store.shown`: what is shown of a row. `Store.Written.shown_eq_some`: something always is.
* `Properties.ofObject_listed`, `Properties.get_iff_shown`: so each property of an object is listed,
  and each property can be had by its identifier.
* `Store.Signed`: members of views have a name. `Board.Reachable.lossless` puts all this together with
  what properties and members refer to.
-/

namespace PropertyBoard

open Store

namespace Store

variable {s : Store}

/-! ## Rows of distinct keys -/

/-- Where keys are distinct, a row is the only one of its key. -/
theorem filter_key_eq {ρ : Type} {key : ρ → String} {rows : List ρ} {r : ρ}
    (h : (rows.map key).Nodup) (hr : r ∈ rows) : (rows.filter fun x => key x = key r) = [r] := by
  induction rows with
  | nil => cases hr
  | cons x rest ih =>
    obtain ⟨hx, hrest⟩ := List.nodup_cons.1 h
    rcases List.mem_cons.1 hr with rfl | hr
    · have hnone : (rest.filter fun y => key y = key r) = [] := by
        rw [List.filter_eq_nil_iff]
        intro y hy heq
        exact hx (List.mem_map.2 ⟨y, hy, of_decide_eq_true heq⟩)
      simp [hnone]
    · have hne : key x ≠ key r := by
        intro heq
        exact hx (heq ▸ List.mem_map_of_mem hr)
      simpa [hne] using ih hrest hr

theorem find?_key_eq {ρ : Type} {key : ρ → String} {rows : List ρ} {r : ρ}
    (h : (rows.map key).Nodup) (hr : r ∈ rows) :
    (rows.find? fun x => key x = key r) = some r := by
  rw [← List.head?_filter, filter_key_eq h hr]
  rfl

theorem find?_key_eq_some {ρ : Type} {key : ρ → String} {rows : List ρ} {k : String} {r : ρ}
    (h : (rows.map key).Nodup) :
    (rows.find? fun x => key x = k) = some r ↔ r ∈ rows ∧ key r = k := by
  constructor
  · intro hr
    exact ⟨List.mem_of_find?_eq_some hr, by simpa using List.find?_some hr⟩
  · rintro ⟨hr, rfl⟩
    exact find?_key_eq h hr

/-- So the row of a key is the same in whatever order the rows come. -/
theorem find?_key_of_perm {ρ : Type} {key : ρ → String} {rows others : List ρ}
    (h : (rows.map key).Nodup) (hperm : others.Perm rows) (k : String) :
    (others.find? fun x => key x = k) = rows.find? fun x => key x = k := by
  have hothers : (others.map key).Nodup := (hperm.map key).nodup_iff.2 h
  ext r
  rw [find?_key_eq_some hothers, find?_key_eq_some h, hperm.mem_iff]

/-! ## Properties beside their fields -/

/-- The one field of a property. -/
theorem Keyed.field_of (h : s.Keyed) {p : PropertyRow} (hp : p ∈ s.properties) :
    ∃ f ∈ s.fields, f.id = p.fieldId ∧ (s.fields.filter fun f => f.id = p.fieldId) = [f] := by
  obtain ⟨f, hf, hid⟩ := hasField_iff.1 (h.fieldOf p hp)
  refine ⟨f, hf, hid, ?_⟩
  rw [← hid]
  exact filter_key_eq h.fields hf

/-- Beside their fields there are all properties, each once. -/
theorem map_fst_joined (h : s.Keyed) : s.joined.map Prod.fst = s.properties := by
  have hone : ∀ p ∈ s.properties,
      ((s.fields.filter fun f => f.id = p.fieldId).map fun f => (p, f)).map Prod.fst = [p] := by
    intro p hp
    obtain ⟨f, _, _, hfilter⟩ := h.field_of hp
    rw [hfilter]
    rfl
  rw [joined_eq, List.map_flatMap, List.flatMap_congr hone, List.flatMap_singleton']

/-- What is shown of a property: what its row says beside the row of its field. -/
def shown (s : Store) (r : PropertyRow) : Option Property :=
  (s.fields.find? fun f => f.id = r.fieldId).bind r.property?

theorem shown_of_mem_joined (h : s.Keyed) {r : Statement.Properties.Joined} (hr : r ∈ s.joined) :
    Properties.readJoined r = s.shown r.1 := by
  obtain ⟨p, f⟩ := r
  obtain ⟨hp, hf, hid⟩ := mem_joined.1 hr
  have hfind : (s.fields.find? fun x => x.id = p.fieldId) = some f := by
    rw [← hid]
    exact find?_key_eq h.fields hf
  rw [shown, hfind]
  rfl

theorem property?_of_written {r : PropertyRow} {f : FieldRow} (hr : r.Written) (hf : f.Written) :
    ∃ p, r.property? f = some p := by
  obtain ⟨field, hfield⟩ := hf.reads
  obtain ⟨type, options, htype, hoptions, _⟩ := FieldRow.field?_eq_some.1 hfield
  obtain ⟨texts, _, htexts⟩ := hr.reads
  obtain ⟨⟨objectType, hobject⟩, _⟩ := hr
  have hname : (Named.ofName? r.objectType : Option ObjectType) = some objectType := by
    rw [hobject, ObjectType.ofName?_name]
  exact ⟨_, PropertyRow.property?_eq_some.2
    ⟨type, texts, objectType, options, htype, htexts, hname, hoptions, rfl⟩⟩

theorem Written.shown_eq_some (hw : s.Written) (hk : s.Keyed) {r : PropertyRow}
    (hr : r ∈ s.properties) : ∃ p, s.shown r = some p := by
  obtain ⟨f, hf, hid, _⟩ := hk.field_of hr
  obtain ⟨p, hp⟩ := property?_of_written (hw.properties r hr) (hw.fields f hf)
  refine ⟨p, ?_⟩
  rw [← shown_of_mem_joined hk (mem_joined.2 ⟨hr, hf, hid⟩)]
  exact hp

/-- Where each row can be read, all of them can. -/
theorem exists_map_some {ρ α : Type} {read : ρ → Option α} {rows : List ρ}
    (h : ∀ r ∈ rows, ∃ a, read r = some a) : ∃ as : List α, rows.map read = as.map some := by
  induction rows with
  | nil => exact ⟨[], rfl⟩
  | cons r rest ih =>
    obtain ⟨⟨a, ha⟩, hrest⟩ := List.forall_mem_cons.1 h
    obtain ⟨as, has⟩ := ih hrest
    exact ⟨a :: as, by simp [ha, has]⟩

end Store

/-! ## Lists of properties -/

/-- Properties are listed by the names of their fields, and by their identifiers where these are
the same. -/
def Property.ListedBefore (a b : Property) : Prop :=
  a.fieldName < b.fieldName ∨ a.fieldName = b.fieldName ∧ a.id < b.id

/-- A list shows each property of an object, once and in order. -/
def Store.Lists (s : Store) (objectId : String) (ps : List Property) : Prop :=
  ps.Pairwise Property.ListedBefore ∧
    ∃ rows : List PropertyRow, rows.Perm (s.properties.filter fun r => r.objectId = objectId) ∧
      rows.map s.shown = ps.map some

namespace Statement

open Sql

/-- The properties of an object beside their fields, in order. -/
theorem Properties.on_ofObject_sorted (objectId : String) {rows : List Properties.Joined}
    (hids : (rows.map fun r => r.1.id).Nodup) :
    ∃ found, (Properties.ofObject objectId).on rows = .ok found ∧
      found.Perm (rows.filter fun r => r.1.objectId = objectId) ∧
      found.Pairwise fun a b => a.2.name < b.2.name ∨ a.2.name = b.2.name ∧ a.1.id < b.1.id := by
  refine ⟨(Properties.ofObject objectId).found rows,
    Select.on_of_open (Nat.zero_le _) (Nat.le_of_ble_eq_true rfl) rfl (fun _ => rfl), ?_, ?_⟩
  · refine (Select.found_perm rfl rows).trans (.of_eq (List.filter_congr ?_))
    intro r _
    simp [Properties.ofObject, own, PropertyRow.objectColumn]
  · refine (Select.found_strict (fun r => r.1.id) (fun _ => rfl) rfl rfl hids).imp ?_
    intro a b h
    have h' : compare a.2.name b.2.name = .lt ∨
        compare a.2.name b.2.name = .eq ∧ compare a.1.id b.1.id = .lt := h
    rwa [Select.compare_eq_lt, Select.compare_eq_lt, Std.LawfulEqCmp.compare_eq_iff_eq] at h'

end Statement

namespace Properties

variable {s : Store} {id objectId : String}

/-- Each property of an object is listed, once and in order. -/
theorem ofObject_listed (hk : s.Keyed) (hw : s.Written) (objectId : String) :
    ∃ ps, ofObject s objectId = .ok ps ∧ s.Lists objectId ps := by
  have hids : (s.joined.map fun r => r.1.id).Nodup := by
    have hkeys := hk.properties
    rw [← map_fst_joined hk, List.map_map] at hkeys
    exact hkeys
  obtain ⟨found, hfound, hperm, hsorted⟩ := Statement.Properties.on_ofObject_sorted objectId hids
  have hjoined : ∀ r ∈ found, r ∈ s.joined := fun r hr => (List.mem_filter.1 (hperm.mem_iff.1 hr)).1
  have hread : ∀ r ∈ found, readJoined r = s.shown r.1 := fun r hr =>
    shown_of_mem_joined hk (hjoined r hr)
  obtain ⟨ps, hps⟩ : ∃ ps : List Property, found.map readJoined = ps.map some := by
    refine exists_map_some fun r hr => ?_
    rw [hread r hr]
    exact hw.shown_eq_some hk (mem_joined.1 (hjoined r hr)).1
  refine ⟨ps, ofObject_eq_ok.2 ⟨found, hfound, hps⟩, ?_, found.map Prod.fst, ?_, ?_⟩
  · -- What is shown has the name and the identifier that the rows are sorted by.
    have hpairs : (found.map readJoined).Pairwise fun x y =>
        ∀ p q, x = some p → y = some q → p.ListedBefore q := by
      refine List.pairwise_map.2 (hsorted.imp ?_)
      intro a b hab p q hp hq
      obtain ⟨_, _, _, _, _, _, _, _, rfl⟩ := PropertyRow.property?_eq_some.1 hp
      obtain ⟨_, _, _, _, _, _, _, _, rfl⟩ := PropertyRow.property?_eq_some.1 hq
      exact hab
    rw [hps] at hpairs
    exact (List.pairwise_map.1 hpairs).imp fun h => h _ _ rfl rfl
  · have hmap : s.properties.filter (fun r => r.objectId = objectId) =
        (s.joined.filter fun r => r.1.objectId = objectId).map Prod.fst := by
      rw [← map_fst_joined hk, List.filter_map]
      rfl
    rw [hmap]
    exact hperm.map _
  · rw [← hps, List.map_map]
    exact List.map_congr_left fun r hr => (hread r hr).symm

/-- A property can be had by its identifier exactly if there is a row of that identifier. -/
theorem get_iff_shown (hk : s.Keyed) {p : Property} :
    get s id = .ok p ↔ ∃ r ∈ s.properties, r.id = id ∧ s.shown r = some p := by
  rw [get_eq_ok, find_eq_ok_some]
  constructor
  · rintro ⟨r, hr, hread⟩
    have hmem := List.mem_of_find?_eq_some hr
    refine ⟨r.1, (mem_joined.1 hmem).1, by simpa using List.find?_some hr, ?_⟩
    rw [← shown_of_mem_joined hk hmem]
    exact hread
  · rintro ⟨r, hr, hid, hshown⟩
    obtain ⟨f, hf, hfid, _⟩ := hk.field_of hr
    have hmem : (r, f) ∈ s.joined := mem_joined.2 ⟨hr, hf, hfid⟩
    obtain ⟨x, hx⟩ : ∃ x, (s.joined.find? fun r => r.1.id = id) = some x := by
      rw [← Option.isSome_iff_exists, List.find?_isSome]
      exact ⟨(r, f), hmem, by simpa using hid⟩
    have hxid : x.1.id = id := by simpa using List.find?_some hx
    have hxmem := List.mem_of_find?_eq_some hx
    have hsame : x.1 = r := List.inj_on_of_nodup_map hk.properties (mem_joined.1 hxmem).1 hr
      (hxid.trans hid.symm)
    refine ⟨x, hx, ?_⟩
    rw [shown_of_mem_joined hk hxmem, hsame]
    exact hshown

end Properties

/-! ## Members -/

namespace Store

/-- Members of views have a trimmed name. -/
def Signed (s : Store) : Prop :=
  ∀ m ∈ s.members, Text.trim m.userId = m.userId ∧ m.userId ≠ ""

theorem Signed.of_writes {b : Board} {c : ServiceCall} {s' : Store} (h : b.store.Signed)
    (hw : ServiceCall.Writes b c s') : s'.Signed := by
  cases hw with
  | @addMember userId user viewId v huser _ _ =>
    intro m hm
    rcases List.mem_append.1 hm with hm | hm
    · exact h m hm
    · rw [List.mem_singleton.1 hm]
      obtain ⟨rfl, hne⟩ := Text.required_eq_ok.1 huser
      exact ⟨Text.trim_trim userId, hne⟩
  | _ => exact h

end Store

theorem Board.Reachable.signed {b : Board} (h : b.Reachable) : b.store.Signed := by
  refine h.induct_writes (by simp [Store.Signed]) ?_ fun b c s' _ hs hw => hs.of_writes hw
  intro s s' hs _ _ _ hmembers m hm
  exact hs m (hmembers ▸ hm)

/-! ## Nothing is lost -/

/-- A post has properties of two fields, whose names are not in the order of the identifiers, and a
view has a member. -/
def twoFields : List Action := [
  .host (.addChannel { id := "c", teamId := "t", name := "town", type := "O" }),
  .host (.addPost
    { id := "p", channelId := "c", userId := "u", message := "", type := "", createdAt := 0 }),
  .call (.createField { name := "state", type := "text" } "u"),
  .call (.createField { name := "owner", type := "user" } "u"),
  .call (.createProperty
    { objectId := "p", objectType := .post, fieldId := Identifier.nth 1, value := [] } "u"),
  .call (.createProperty
    { objectId := "p"
      objectType := .post
      fieldId := Identifier.nth 2
      value := [.str " u "] } "u"),
  .call (.createView { title := "all", query := { channelId := some "c" } }),
  .call (.addMember " u " (Identifier.nth 5))]

/-- Properties have their fields and members their views, nothing is there twice, and so no property
is lost when properties are shown beside their fields. -/
theorem Board.Reachable.lossless {b : Board} (h : b.Reachable) :
    (∀ r ∈ b.store.properties, ∃ f ∈ b.store.fields, f.id = r.fieldId) ∧
      (b.store.properties.map fun r => (r.objectId, r.fieldId)).Nodup ∧
      (∀ m ∈ b.store.members, (∃ v ∈ b.store.views, v.id = m.viewId) ∧
        Text.trim m.userId = m.userId ∧ m.userId ≠ "") ∧
      b.store.members.Nodup ∧
      (∀ objectId, ∃ ps, Properties.ofObject b.store objectId = .ok ps ∧
        b.store.Lists objectId ps) ∧
      (∀ r ∈ b.store.properties, ∃ p, Properties.get b.store r.id = .ok p ∧
        b.store.shown r = some p) ∧
      ∀ id, (∃ p, Properties.get b.store id = .ok p) ↔ ∃ r ∈ b.store.properties, r.id = id := by
  have hk := h.keyed
  have hw := h.written
  have hget : ∀ r ∈ b.store.properties, ∃ p, Properties.get b.store r.id = .ok p ∧
      b.store.shown r = some p := by
    intro r hr
    obtain ⟨p, hp⟩ := hw.shown_eq_some hk hr
    exact ⟨p, (Properties.get_iff_shown hk).2 ⟨r, hr, rfl, hp⟩, hp⟩
  refine ⟨fun r hr => hasField_iff.1 (hk.fieldOf r hr), hk.pairs,
    fun m hm => ⟨hasView_iff.1 (hk.viewOf m hm), h.signed m hm⟩, hk.members,
    Properties.ofObject_listed hk hw, hget, ?_⟩
  intro id
  constructor
  · rintro ⟨p, hp⟩
    obtain ⟨r, hr, hid, _⟩ := (Properties.get_iff_shown hk).1 hp
    exact ⟨r, hr, hid⟩
  · rintro ⟨r, hr, rfl⟩
    obtain ⟨p, hp, _⟩ := hget r hr
    exact ⟨p, hp⟩

/-- Both properties of the post are listed. -/
theorem lossless_with_two_fields :
    (Board.run { now := 0 } twoFields).store.properties.map
        (fun r => (r.objectId, r.fieldId, r.value)) =
        [("p", Identifier.nth 1, "[]"), ("p", Identifier.nth 2, "[\"u\"]")] ∧
      (Board.run { now := 0 } twoFields).store.members = [⟨Identifier.nth 5, "u"⟩] ∧
      ∃ ps, Properties.ofObject (Board.run { now := 0 } twoFields).store "p" = .ok ps ∧
        (Board.run { now := 0 } twoFields).store.Lists "p" ps :=
  ⟨by decide +kernel, by decide +kernel,
    (Board.Reachable.lossless (Board.reachable_run 0 twoFields)).2.2.2.2.1 "p"⟩

end PropertyBoard
