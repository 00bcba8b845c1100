import Mathlib.Data.List.Induction
import Mathlib.Data.List.Infix
import PropertyBoard.Proofs.Rows
import PropertyBoard.Proofs.Service.Platform
import PropertyBoard.Service.Access

/-!
# PropertyBoard.Proofs.Access

Whose properties they are, and who may change them.

* `Store.MayManage`: who may change the properties of an object, told by the tables of the platform.
  `Access.mayManage_of_ok`: nobody else is let.
* `Board.Held`: the platform had an object at some time of a run. Each property is of such an object
  (`Board.held_of_row`). `Board.Unmixed`: no identifier is ever both that of a post and that of a
  channel.
* `Store.Touches`: the rows that are added, taken away or changed. `ServiceCall.Aims`: the object at
  which a call about properties aims. `ServiceCall.Writes.touched_object`: the call touches no
  property of another object.
-/

namespace PropertyBoard

open Store

/-! ## What the platform says -/

namespace Store

/-- Whether the platform has an object. -/
def HasObject (s : Store) : ObjectType → String → Prop
  | .post, id => ∃ p ∈ s.posts, p.id = id
  | .channel, id => ∃ c ∈ s.channels, c.id = id

/-- The properties of a post are for the members of its channel, and those of an open or private
channel for its admins. -/
def MayManage (s : Store) (userId : String) : ObjectType → String → Prop
  | .post, id => ∃ p c role, s.post? id = some p ∧ s.channelRow? p.channelId = some c ∧
      s.role? c.id userId = some role
  | .channel, id => ∃ c, s.channelRow? id = some c ∧ (c.type = "O" ∨ c.type = "P") ∧
      s.role? c.id userId = some "admin"

end Store

variable {s : Store} {userId id : String} {type : ObjectType}

theorem Channels.row_of_get {channel : Channel} (h : get s id = .ok channel) :
    ∃ c, s.channelRow? id = some c ∧ c.id = channel.id ∧ c.type = channel.type.name := by
  obtain ⟨c, hc, hread⟩ := find_eq_ok_some.1 (get_eq_ok.1 h)
  obtain ⟨type, htype, rfl⟩ := ChannelRow.channel?_eq_some.1 hread
  refine ⟨c, hc, rfl, ?_⟩
  exact (Named.name_of_ofName? htype).symm

theorem Platform.hasObject_of_channelOf {channel : Channel}
    (h : channelOf s type id = .ok channel) : s.HasObject type id := by
  cases type with
  | post =>
    obtain ⟨p, hp, _⟩ := Except.bind_eq_ok.1 h
    have hpost := Posts.find_eq_ok_some.1 (Posts.get_eq_ok.1 hp)
    exact ⟨p, List.mem_of_find?_eq_some hpost, id_of_post? hpost⟩
  | channel =>
    obtain ⟨c, hc, _⟩ := Channels.row_of_get h
    exact ⟨c, List.mem_of_find?_eq_some hc, by simpa using List.find?_some hc⟩

theorem Platform.hasObject_of_scopeOf {scope : Scope} (h : scopeOf s type id = .ok scope) :
    s.HasObject type id := by
  obtain ⟨channel, hchannel, _⟩ := Except.bind_eq_ok.1 h
  exact hasObject_of_channelOf hchannel

namespace Access

theorem toProperty_eq_ok {access : Access} :
    toProperty s userId type id = .ok access ↔
      ∃ channel permission,
        Platform.channelOf s type id = .ok channel ∧ permissionFor type channel = .ok permission ∧
        (s.role? channel.id userId).any permission.grantedTo = true ∧ access = granted := by
  simp only [toProperty, Except.bind_eq_ok, Channels.allows_eq, Except.ok.injEq, exists_eq_left']
  constructor
  · rintro ⟨channel, hchannel, permission, hpermission, h⟩
    split at h
    · rename_i hrole
      exact ⟨channel, permission, hchannel, hpermission, hrole, (Except.ok.inj h).symm⟩
    · cases h
  · rintro ⟨channel, permission, hchannel, hpermission, hrole, rfl⟩
    refine ⟨channel, hchannel, permission, hpermission, ?_⟩
    rw [if_pos hrole]

/-- A channel whose properties can be changed is open or private, and it takes the role of its admins
to do so. -/
theorem admin_of_channel {channel : Channel} {permission : Permission}
    (h : permissionFor .channel channel = .ok permission) :
    (channel.type.name = "O" ∨ channel.type.name = "P") ∧
      ∀ role, permission.grantedTo role = true → role = "admin" := by
  unfold permissionFor channelPermission at h
  simp only at h
  cases htype : channel.type <;> rw [htype] at h <;> cases h
  · exact ⟨.inl rfl, fun _ hrole => of_decide_eq_true hrole⟩
  · exact ⟨.inr rfl, fun _ hrole => of_decide_eq_true hrole⟩

/-- Nobody is let to whom the platform does not give the right. -/
theorem mayManage_of_ok {access : Access} (h : toProperty s userId type id = .ok access) :
    s.MayManage userId type id := by
  obtain ⟨channel, permission, hchannel, hpermission, hallowed, _⟩ := toProperty_eq_ok.1 h
  obtain ⟨role, hrole, hgranted⟩ := (Option.any_eq_true _ _).1 hallowed
  cases type with
  | post =>
    obtain ⟨p, hp, hget⟩ := Except.bind_eq_ok.1 hchannel
    obtain ⟨c, hc, hid, _⟩ := Channels.row_of_get hget
    exact ⟨p, c, role, Posts.find_eq_ok_some.1 (Posts.get_eq_ok.1 hp), hc, hid ▸ hrole⟩
  | channel =>
    obtain ⟨c, hc, hid, hname⟩ := Channels.row_of_get hchannel
    obtain ⟨htype, hadmin⟩ := admin_of_channel hpermission
    rw [← hname] at htype
    rw [← hid, hadmin role hgranted] at hrole
    exact ⟨c, hc, htype, hrole⟩

/-- There is no right to change what is not there. -/
theorem hasObject_of_ok {access : Access} (h : toProperty s userId type id = .ok access) :
    s.HasObject type id := by
  obtain ⟨channel, _, hchannel, _⟩ := toProperty_eq_ok.1 h
  exact Platform.hasObject_of_channelOf hchannel

end Access

/-! ## Objects over a run -/

/-- Each property is of an object that had one before, or that the platform has. -/
theorem ServiceCall.Writes.object_cases {b : Board} {c : ServiceCall} {s' : Store}
    (h : ServiceCall.Writes b c s') {row : PropertyRow} (hrow : row ∈ s'.properties) :
    (∃ old ∈ b.store.properties, old.objectKey = row.objectKey) ∨
      ∃ type : ObjectType, row.objectType = type.name ∧ b.store.HasObject type row.objectId := by
  cases h with
  | updateField =>
    obtain ⟨old, hold, _, rfl⟩ := old_of_mem_conformedTo hrow
    exact .inl ⟨old, hold, rfl⟩
  | deleteField => exact .inl ⟨row, (List.mem_filter.1 (List.mem_filter.1 hrow).1).1, rfl⟩
  | @createProperty input _ _ _ _ _ r _ _ hscope _ hr _ =>
    obtain ⟨old, hold, hkey⟩ := old_of_mem_stamped hrow
    rcases List.mem_append.1 hold with hold | hold
    · exact .inl ⟨old, hold, hkey⟩
    · rw [List.mem_singleton.1 hold, hr] at hkey
      obtain ⟨hobject, htype⟩ := Prod.mk.inj hkey
      refine .inr ⟨input.objectType, htype.symm, ?_⟩
      rw [← hobject]
      exact Platform.hasObject_of_scopeOf hscope
  | updateProperty =>
    obtain ⟨old, hold, _, rfl⟩ := old_of_mem_withValue hrow
    exact .inl ⟨old, hold, rfl⟩
  | deleteProperty => exact .inl ⟨row, (List.mem_filter.1 hrow).1, rfl⟩
  | resyncObject => exact .inl (old_of_mem_stamped hrow)
  | _ => exact .inl ⟨row, hrow, rfl⟩

namespace Board

/-- Whether the platform had an object at some time of a run. -/
def Held (source : Identifier.Source) (now : Int64) (actions : List Action) (type : ObjectType)
    (id : String) : Prop :=
  ∃ before, before <+: actions ∧ (run { now, source } before).store.HasObject type id

/-- No identifier is ever both that of a post and that of a channel. -/
def Unmixed (source : Identifier.Source) (now : Int64) (actions : List Action) : Prop :=
  ∀ id, Held source now actions .post id → ¬Held source now actions .channel id

variable {source : Identifier.Source} {now : Int64} {actions : List Action}

theorem Held.append (h : Held source now actions type id) (later : List Action) :
    Held source now (actions ++ later) type id := by
  obtain ⟨before, hbefore, hobject⟩ := h
  exact ⟨before, hbefore.trans (List.prefix_append actions later), hobject⟩

/-- What the platform has at the end of a run, it had. -/
theorem held_of_hasObject (h : (run { now, source } actions).store.HasObject type id) :
    Held source now actions type id :=
  ⟨actions, List.prefix_rfl, h⟩

theorem Unmixed.same_type (h : Unmixed source now actions) {type' : ObjectType}
    (htype : Held source now actions type id) (htype' : Held source now actions type' id) : type = type' := by
  cases type <;> cases type'
  · rfl
  · exact absurd htype' (h id htype)
  · exact absurd htype (h id htype')
  · rfl

/-- Whether it is so can be told from the boards on the way. -/
theorem unmixed_iff :
    Unmixed source now actions ↔
      ∀ before ∈ actions.inits, ∀ p ∈ (run { now, source } before).store.posts,
        ∀ before' ∈ actions.inits, ∀ c ∈ (run { now, source } before').store.channels, p.id ≠ c.id := by
  simp only [List.mem_inits]
  constructor
  · intro h before hbefore p hp before' hbefore' c hc hid
    exact h p.id ⟨before, hbefore, p, hp, rfl⟩ ⟨before', hbefore', c, hc, hid.symm⟩
  · rintro h id ⟨before, hbefore, p, hp, rfl⟩ ⟨before', hbefore', c, hc, hid⟩
    exact h before hbefore p hp before' hbefore' c hc hid.symm

/-- A property is of an object that the platform had when it was created. -/
theorem held_of_row (source : Identifier.Source) (now : Int64) (actions : List Action) :
    ∀ row ∈ (run { now, source } actions).store.properties,
      ∃ type : ObjectType, row.objectType = type.name ∧ Held source now actions type row.objectId := by
  induction actions using List.reverseRecOn with
  | nil => simp
  | append_singleton actions a ih =>
    have hb := reachable_run now actions source
    rw [run_append, run_cons, run_nil]
    intro row hrow
    rcases (run { now, source } actions).after_cases a with ⟨_, hsame, _⟩ | ⟨c, rfl, hok⟩
    · rw [hsame] at hrow
      obtain ⟨type, htype, hheld⟩ := ih row hrow
      exact ⟨type, htype, hheld.append [a]⟩
    · have hw := ServiceCall.writes_of_ok hb.keyed.properties hok
      rcases hw.object_cases hrow with ⟨old, hold, hkey⟩ | ⟨type, htype, hobject⟩
      · obtain ⟨hid, htype'⟩ := Prod.mk.inj hkey
        obtain ⟨type, htype, hheld⟩ := ih old hold
        rw [hid] at hheld
        exact ⟨type, htype' ▸ htype, hheld.append _⟩
      · exact ⟨type, htype, (held_of_hasObject hobject).append _⟩

end Board

/-! ## Calls about properties -/

/-- A property is added, taken away or changed. -/
def Store.Touches (s s' : Store) (row : PropertyRow) : Prop :=
  ¬(row ∈ s.properties ↔ row ∈ s'.properties)

theorem Properties.objectId_of_find (hk : s.Keyed) {p : Property} (h : find s id = .ok (some p))
    {row : PropertyRow} (hrow : row ∈ s.properties) (hid : row.id = id) :
    row.objectId = p.objectId := by
  obtain ⟨r, hr, hrid, field, hread⟩ := mem_of_find h
  have hsame : r = row := List.inj_on_of_nodup_map hk.properties hr hrow (hrid.trans hid.symm)
  obtain ⟨_, _, _, _, _, _, _, _, rfl⟩ := PropertyRow.property?_eq_some.1 hread
  rw [hsame]

namespace ServiceCall

/-- The object at which a call about properties aims. A property tells its object; the type of an
object is that of its first property. -/
inductive Aims (s : Store) : ServiceCall → ObjectType → String → Prop
  | create (input : PropertyInput) (userId : String) :
      Aims s (.createProperty input userId) input.objectType input.objectId
  | update {id : String} {p : Property} (raw : List Json) (userId : String)
      (hp : Properties.find s id = .ok (some p)) :
      Aims s (.updateProperty id raw userId) p.objectType p.objectId
  | delete {id : String} {p : Property} (hp : Properties.find s id = .ok (some p)) :
      Aims s (.deleteProperty id) p.objectType p.objectId
  | resync {objectId : String} {first : Property} {rest : List Property}
      (hobject : Properties.ofObject s objectId = .ok (first :: rest)) :
      Aims s (.resyncObject objectId) first.objectType objectId

/-- A call about properties touches no property of another object. -/
theorem Writes.touched_object {b : Board} {c : ServiceCall} {s' : Store} (hk : b.store.Keyed)
    (haims : c.Aims b.store type id) (h : Writes b c s') {row : PropertyRow}
    (htouched : b.store.Touches s' row) : row.objectId = id := by
  by_contra hne
  refine htouched ?_
  cases haims with
  | create input userId =>
    cases h with
    | nothing => exact Iff.rfl
    | @createProperty _ _ _ _ _ _ r _ _ _ _ hr _ =>
      have hother : row ≠ r := by
        intro hrow
        rw [hrow, hr] at hne
        exact hne rfl
      rw [mem_stamped_iff_of_ne hne, List.mem_append, List.mem_singleton]
      exact ⟨.inl, fun hrow => hrow.resolve_right hother⟩
  | @update propertyId p raw userId hp =>
    cases h with
    | nothing => exact Iff.rfl
    | updateProperty =>
      constructor
      · intro hrow
        exact mem_withValue_of_ne hrow fun hid => hne (Properties.objectId_of_find hk hp hrow hid)
      · intro hrow
        obtain ⟨old, hold, rfl⟩ := mem_withValue.1 hrow
        by_cases hid : old.id = propertyId
        · rw [if_pos hid] at hne
          exact absurd (Properties.objectId_of_find hk hp hold hid) hne
        · rw [if_neg hid]
          exact hold
  | @delete propertyId p hp =>
    cases h with
    | nothing => exact Iff.rfl
    | deleteProperty =>
      constructor
      · intro hrow
        have hid : row.id ≠ propertyId :=
          fun hid => hne (Properties.objectId_of_find hk hp hrow hid)
        exact List.mem_filter.2 ⟨hrow, decide_eq_true hid⟩
      · intro hrow
        exact (List.mem_filter.1 hrow).1
  | resync hobject =>
    cases h with
    | nothing => exact Iff.rfl
    | resyncObject => exact (mem_stamped_iff_of_ne hne).symm

end ServiceCall

/-- Where no identifier is ever that of a post and of a channel, an object that the platform has tells
the type of what is touched under its identifier. -/
theorem Board.Unmixed.type_of_touched {source : Identifier.Source} {now : Int64} {actions : List Action}
    (h : Unmixed source now actions) {c : ServiceCall} {s' : Store}
    (hw : ServiceCall.Writes (run { now, source } actions) c s') {row : PropertyRow}
    (htouched : (run { now, source } actions).store.Touches s' row)
    (hobject : (run { now, source } actions).store.HasObject type row.objectId) :
    row.objectType = type.name := by
  -- A row that is new has the object of an older one, or one that the platform has.
  obtain ⟨type', htype', hheld⟩ : ∃ type' : ObjectType, row.objectType = type'.name ∧
      Held source now actions type' row.objectId := by
    by_cases hrow : row ∈ (run { now, source } actions).store.properties
    · exact held_of_row source now actions row hrow
    · have hnew : row ∈ s'.properties := by
        by_contra hnot
        exact htouched (iff_of_false hrow hnot)
      rcases hw.object_cases hnew with ⟨old, hold, hkey⟩ | ⟨type', htype', hhas⟩
      · obtain ⟨hid, htype⟩ := Prod.mk.inj hkey
        obtain ⟨type', htype', hheld⟩ := held_of_row source now actions old hold
        exact ⟨type', htype ▸ htype', hid ▸ hheld⟩
      · exact ⟨type', htype', held_of_hasObject hhas⟩
  rw [htype', h.same_type hheld (held_of_hasObject hobject)]

end PropertyBoard
