import Mathlib.Logic.Function.Iterate
import PropertyBoard.Migration
import PropertyBoard.Proofs.Keys

/-!
# PropertyBoard.Proofs.Migration

Opening a database that an older form of the board left behind. Which steps remain is told by the
names recorded, so a run takes these and no other, each once and in order (`migrate_eq`), and one
that fails says at which of them (`message_of_failure`). Whether it gets through depends on the rows:
the last step wants the properties to be one for an object and a field, which the tables of the
steps before do not.

* `Store.Admitted`: what the tables and indexes made so far ask of the rows.
* `Database.AtStep`, `Database.Took`: the first `k` steps were taken.
* `Definition.isFounded`: whether definitions can be made one after the other, each for the first
  time. `defines_new`: then they are made and no row changes.
* `AtStep.take`: one step, `AtStep.run`: several.
* `Database.opening_settles`: every opening ends with all steps taken and each row as it was, or, if
  two properties stand for one object and field, fails and leaves the database as it was.
-/

namespace PropertyBoard

open Store Migration

namespace Store

def OnePerPair (s : Store) : Prop :=
  (s.properties.map fun p => (p.objectId, p.fieldId)).Nodup

/-- A table that was not made has no rows. The other conditions are the keys and references of the
tables; that pairs are unique is asked for by an index of its own. -/
structure Admitted (made : List Definition) (s : Store) : Prop where
  empty : ∀ t, .table t ∉ made → t.empty s = s
  fields : (s.fields.map FieldRow.id).Nodup
  properties : (s.properties.map PropertyRow.id).Nodup
  fieldOf : ∀ p ∈ s.properties, s.hasField p.fieldId = true
  views : (s.views.map ViewRow.id).Nodup
  members : s.members.Nodup
  viewOf : ∀ m ∈ s.members, s.hasView m.viewId = true
  channels : (s.channels.map ChannelRow.id).Nodup
  roles : (s.roles.map fun r => (r.channelId, r.userId)).Nodup
  posts : (s.posts.map Post.id).Nodup
  pairs : .uniquePairs ∈ made → s.OnePerPair

theorem admitted_none (made : List Definition) : Admitted made {} where
  empty t _ := by cases t <;> rfl
  fields := List.nodup_nil
  properties := List.nodup_nil
  fieldOf := List.forall_mem_nil _
  views := List.nodup_nil
  members := List.nodup_nil
  viewOf := List.forall_mem_nil _
  channels := List.nodup_nil
  roles := List.nodup_nil
  posts := List.nodup_nil
  pairs _ := List.nodup_nil

/-- What is asked for once the index is there is all that the board relies on. -/
theorem Admitted.keyed {made : List Definition} {s : Store} (h : s.Admitted made)
    (hindex : .uniquePairs ∈ made) : s.Keyed where
  fields := h.fields
  properties := h.properties
  pairs := h.pairs hindex
  fieldOf := h.fieldOf
  views := h.views
  members := h.members
  viewOf := h.viewOf

/-- More tables ask for nothing more of rows that there are. -/
theorem Admitted.append {made new : List Definition} {s : Store} (h : s.Admitted made)
    (hpairs : .uniquePairs ∈ new → s.OnePerPair) : s.Admitted (made ++ new) where
  empty t ht := h.empty t fun hmem => ht (List.mem_append_left new hmem)
  fields := h.fields
  properties := h.properties
  fieldOf := h.fieldOf
  views := h.views
  members := h.members
  viewOf := h.viewOf
  channels := h.channels
  roles := h.roles
  posts := h.posts
  pairs hmem := (List.mem_append.mp hmem).elim h.pairs hpairs

end Store

namespace Migration

theorem holdsPair_iff {rows : List PropertyRow} {r : PropertyRow} :
    holdsPair rows r = true ↔
      (r.objectId, r.fieldId) ∈ rows.map fun p => (p.objectId, p.fieldId) := by
  simp [holdsPair]

theorem arePairsUnique_iff (s : Store) :
    arePairsUnique s.properties = true ↔ s.OnePerPair := by
  unfold OnePerPair
  induction s.properties with
  | nil => simp [arePairsUnique]
  | cons r rest ih =>
    rw [arePairsUnique, Bool.and_eq_true, ih, List.map_cons, List.nodup_cons, ← holdsPair_iff]
    simp

theorem names_nodup : (all.map name).Nodup := by
  decide

theorem steps_not_mem (m : Migration) : .steps ∉ m.definitions := by
  cases m <;> decide

theorem uniquePairs_mem_iff {m : Migration} :
    .uniquePairs ∈ m.definitions ↔ m = .uniqueProperties := by
  cases m <;> decide

theorem uniqueProperties_last {k : Nat} (hm : all[k]? = some .uniqueProperties) :
    k + 1 = all.length := by
  match k, hm with
  | 2, _ => rfl

/-- All that there is after the first `k` steps. -/
def madeBy (k : Nat) : List Definition :=
  .steps :: (all.take k).flatMap definitions

theorem madeBy_succ {k : Nat} {m : Migration} (hm : all[k]? = some m) :
    madeBy (k + 1) = madeBy k ++ m.definitions := by
  simp [madeBy, List.take_add_one, hm]

end Migration

namespace Definition

/-- Whether the table that a definition is over is there. -/
def hasGround (made : List Definition) : Definition → Bool
  | .steps => false
  | .index _ t => (table t).isAmong made
  | .uniquePairs => (table .properties).isAmong made
  | _ => true

/-- Whether definitions can be made one after the other, none of them for the second time. -/
def isFounded : List Definition → List Definition → Bool
  | _, [] => true
  | made, c :: rest => !c.isAmong made && c.hasGround made && isFounded (made ++ [c]) rest

theorem isFounded_definitions {k : Nat} {m : Migration} (hm : all[k]? = some m) :
    isFounded (madeBy k) m.definitions = true := by
  match k, hm with
  | 0, rfl => decide
  | 1, rfl => decide
  | 2, rfl => decide

theorem not_mem_of_not_isAmong {made : List Definition} {c : Definition}
    (h : c.isAmong made = false) : c ∉ made := by
  intro hmem
  have : c.isAmong made = true := by
    simpa [isAmong] using ⟨c, hmem, rfl⟩
  simp [this] at h

end Definition

namespace Database

variable {d d' : Database} {c : Definition} {m : Migration} {ms : List Migration} {k n : Nat}

/-! ## What is recorded -/

theorem applied_of_define (hc : c ≠ .steps) (h : d.define c = .ok d') :
    d'.applied = d.applied := by
  unfold define at h
  split at h
  · cases h
    rfl
  · split at h
    · cases h
    · cases h
      unfold make
      split <;> first | contradiction | rfl

theorem applied_of_defines {cs : List Definition} (hcs : .steps ∉ cs)
    (h : cs.foldlM define d = .ok d') : d'.applied = d.applied := by
  induction cs generalizing d with
  | nil =>
    cases h
    rfl
  | cons c cs ih =>
    rw [List.mem_cons, not_or] at hcs
    rw [List.foldlM_cons] at h
    cases hd : d.define c with
    | error e => simp [hd, bind, Except.bind] at h
    | ok d₁ =>
      rw [hd] at h
      rw [ih hcs.2 h, applied_of_define (Ne.symm hcs.1) hd]

theorem applied_of_take (h : d.take m = .ok d') : d'.applied = d.applied ++ [m.name] := by
  unfold take at h
  split at h
  · cases h
  · rename_i d₁ hd₁
    split at h
    · cases h
    · cases h
      rw [applied_of_defines (steps_not_mem m) hd₁]

theorem apply_recorded (h : m.name ∈ d.applied) : d.apply m = .ok d := by
  simp [apply, h]

theorem apply_pending (h : m.name ∉ d.applied) : d.apply m = d.take m := by
  simp [apply, h]

theorem applies_recorded (h : ∀ m ∈ ms, m.name ∈ d.applied) : ms.foldlM apply d = .ok d := by
  induction ms with
  | nil => rfl
  | cons m ms ih =>
    rw [List.forall_mem_cons] at h
    rw [List.foldlM_cons, apply_recorded h.1]
    exact ih h.2

/-- Steps that are not recorded, each of a name of its own. -/
def Pending (d : Database) (ms : List Migration) : Prop :=
  (∀ m ∈ ms, m.name ∉ d.applied) ∧ (ms.map name).Nodup

/-- A step records no name but its own. -/
theorem Pending.after_take (h : d.Pending (m :: ms)) (hd : d.take m = .ok d') : d'.Pending ms := by
  obtain ⟨hnew, hnames⟩ := h
  rw [List.map_cons, List.nodup_cons] at hnames
  refine ⟨?_, hnames.2⟩
  intro m' hm'
  rw [applied_of_take hd, List.mem_append, List.mem_singleton, not_or]
  refine ⟨hnew m' (List.mem_cons_of_mem m hm'), ?_⟩
  intro hname
  exact hnames.1 (hname ▸ List.mem_map_of_mem hm')

theorem applies_pending (h : d.Pending ms) : ms.foldlM apply d = ms.foldlM take d := by
  induction ms generalizing d with
  | nil => rfl
  | cons m ms ih =>
    rw [List.foldlM_cons, List.foldlM_cons, apply_pending (h.1 m List.mem_cons_self)]
    cases hd : d.take m with
    | error e => rfl
    | ok d₁ => exact ih (h.after_take hd)

/-- Such steps fail for what they make, and never because a name is recorded. -/
theorem takes_pending_error {e : Failure} (h : d.Pending ms) (he : ms.foldlM take d = .error e) :
    ∃ m ∈ ms, ∃ fault, e = .running m fault := by
  induction ms generalizing d with
  | nil => cases he
  | cons m ms ih =>
    rw [List.foldlM_cons] at he
    cases hd : d.take m with
    | ok d₁ =>
      rw [hd] at he
      obtain ⟨m', hm', fault, rfl⟩ := ih (h.after_take hd) he
      exact ⟨m', List.mem_cons_of_mem m hm', fault, rfl⟩
    | error e' =>
      rw [hd] at he
      cases he
      unfold take at hd
      split at hd
      · cases hd
        exact ⟨m, List.mem_cons_self, _, rfl⟩
      · rename_i d₁ hd₁
        have hnew : m.name ∉ d₁.applied := by
          rw [applied_of_defines (steps_not_mem m) hd₁]
          exact h.1 m List.mem_cons_self
        simp [hnew] at hd

theorem pending_of_applied (h : d.applied = (all.take k).map name) : d.Pending (all.drop k) := by
  have hnames : ((all.take k).map name ++ (all.drop k).map name).Nodup := by
    rw [← List.map_append, List.take_append_drop]
    exact names_nodup
  rw [List.nodup_append] at hnames
  obtain ⟨-, hrest, hapart⟩ := hnames
  refine ⟨?_, hrest⟩
  intro m hm hrecorded
  rw [h] at hrecorded
  exact hapart _ hrecorded _ (List.mem_map_of_mem hm) rfl

/-- A run takes the steps that remain, each once and in order, whatever the rows are. -/
theorem migrate_eq (h : d.tracked.applied = (all.take k).map name) :
    d.migrate = (all.drop k).foldlM take d.tracked := by
  have hdone : (all.take k).foldlM apply d.tracked = .ok d.tracked := by
    refine applies_recorded ?_
    intro m hm
    rw [h]
    exact List.mem_map_of_mem hm
  calc d.migrate
      = (all.take k ++ all.drop k).foldlM apply d.tracked := by
        rw [List.take_append_drop]
        rfl
    _ = (all.drop k).foldlM apply d.tracked := by
        rw [List.foldlM_append, hdone]
        rfl
    _ = (all.drop k).foldlM take d.tracked := applies_pending (pending_of_applied h)

/-- A run that fails says which of the steps that remain it was at. -/
theorem message_of_failure {e : Failure} (h : d.tracked.applied = (all.take k).map name)
    (he : d.migrate = .error e) :
    ∃ m ∈ all.drop k, e.message = "running migration " ++ m.name := by
  rw [migrate_eq h] at he
  obtain ⟨m, hm, fault, rfl⟩ := takes_pending_error (pending_of_applied h) he
  exact ⟨m, hm, rfl⟩

/-! ## What is made -/

theorem fault_eq_none (hground : c.hasGround d.made = true)
    (hpairs : c = .uniquePairs → d.store.OnePerPair) : d.fault c = none := by
  cases c with
  | uniquePairs =>
    simp only [Definition.hasGround] at hground
    simp [fault, has, hground, (arePairsUnique_iff d.store).mpr (hpairs rfl)]
  | index name t =>
    simp only [Definition.hasGround] at hground
    simp [fault, has, hground]
  | steps | table _ | objects => rfl

/-- What is made for the first time is added and changes no row: a table that is not there has
none. -/
theorem define_new (hnew : c.isAmong d.made = false) (hground : c.hasGround d.made = true)
    (hempty : ∀ t, .table t ∉ d.made → t.empty d.store = d.store)
    (hpairs : c = .uniquePairs → d.store.OnePerPair) :
    d.define c = .ok { d with made := d.made ++ [c] } := by
  simp only [define, has, hnew, fault_eq_none hground hpairs]
  cases c with
  | steps => simp [Definition.hasGround] at hground
  | table t => simp [make, hempty t (Definition.not_mem_of_not_isAmong hnew)]
  | index _ _ | uniquePairs | objects => rfl

theorem defines_new {cs : List Definition} (hcs : Definition.isFounded d.made cs = true)
    (hempty : ∀ t, .table t ∉ d.made → t.empty d.store = d.store)
    (hpairs : .uniquePairs ∈ cs → d.store.OnePerPair) :
    cs.foldlM define d = .ok { d with made := d.made ++ cs } := by
  induction cs generalizing d with
  | nil => simp [pure, Except.pure]
  | cons c cs ih =>
    simp only [Definition.isFounded, Bool.and_eq_true, Bool.not_eq_true'] at hcs
    obtain ⟨⟨hnew, hground⟩, hrest⟩ := hcs
    have hd := define_new hnew hground hempty fun hc => hpairs (hc ▸ List.mem_cons_self)
    rw [List.foldlM_cons, hd]
    have hmore := ih (d := { d with made := d.made ++ [c] }) hrest
      (fun t ht => hempty t fun hmem => ht (List.mem_append_left [c] hmem))
      fun hmem => hpairs (List.mem_cons_of_mem c hmem)
    simpa [bind, Except.bind] using hmore

/-! ## From step to step -/

/-- The first `k` steps were taken and recorded, and the rows are such as these allow. -/
structure AtStep (d : Database) (k : Nat) : Prop where
  le : k ≤ all.length
  made : d.made = madeBy k
  applied : d.applied = (all.take k).map name
  rows : d.store.Admitted d.made

/-- A new file, or one in which the first `k` steps were taken. -/
def Took (d : Database) (k : Nat) : Prop :=
  d = {} ∧ k = 0 ∨ d.AtStep k

theorem AtStep.tracked (h : d.AtStep k) : d.tracked = d := by
  simp [Database.tracked, has, Definition.isAmong, h.made, madeBy]

theorem atStep_new : AtStep (tracked {}) 0 where
  le := Nat.zero_le _
  made := rfl
  applied := rfl
  rows := admitted_none _

theorem Took.atStep (h : d.Took k) : d.tracked.AtStep k := by
  obtain ⟨rfl, rfl⟩ | h := h
  · exact atStep_new
  · rw [h.tracked]
    exact h

theorem Took.store_tracked (h : d.Took k) : d.tracked.store = d.store := by
  obtain ⟨rfl, rfl⟩ | h := h
  · rfl
  · rw [h.tracked]

theorem AtStep.take (h : d.AtStep k) (hm : all[k]? = some m)
    (hpairs : m = .uniqueProperties → d.store.OnePerPair) :
    ∃ d', d.take m = .ok d' ∧ d'.AtStep (k + 1) ∧ d'.store = d.store := by
  have hindex : .uniquePairs ∈ m.definitions → d.store.OnePerPair :=
    fun hmem => hpairs (uniquePairs_mem_iff.mp hmem)
  have hmade : m.definitions.foldlM define d = .ok { d with made := d.made ++ m.definitions } :=
    defines_new (h.made ▸ Definition.isFounded_definitions hm) h.rows.empty hindex
  have htake : all.take (k + 1) = all.take k ++ [m] := by
    simp [List.take_add_one, hm]
  have hnew : m.name ∉ d.applied := by
    have hnames : ((all.take (k + 1)).map name).Nodup :=
      names_nodup.sublist ((List.take_sublist _ _).map name)
    rw [htake, List.map_append, List.map_singleton, ← List.concat_eq_append,
      List.nodup_concat] at hnames
    rw [h.applied]
    exact hnames.1
  refine ⟨{ d with made := d.made ++ m.definitions, applied := d.applied ++ [m.name] },
    ?_, ⟨?_, ?_, ?_, h.rows.append hindex⟩, rfl⟩
  · simp [Database.take, hmade, hnew]
  · exact (List.getElem?_eq_some_iff.mp hm).1
  · rw [madeBy_succ hm, ← h.made]
  · rw [htake, List.map_append, ← h.applied]
    rfl

theorem takes_append {d₁ : Database} (h : ms.foldlM Database.take d = .ok d₁) (m : Migration) :
    (ms ++ [m]).foldlM Database.take d = d₁.take m := by
  rw [List.foldlM_append, h]
  exact bind_pure (d₁.take m)

/-- By induction on the number of steps. Only the last of all asks something of the rows. -/
theorem AtStep.run (h : d.AtStep k) (hle : k + n ≤ all.length)
    (hpairs : k + n = all.length → d.store.OnePerPair) :
    ∃ d', ((all.drop k).take n).foldlM Database.take d = .ok d' ∧ d'.AtStep (k + n) ∧
      d'.store = d.store := by
  induction n with
  | zero => exact ⟨d, rfl, h, rfl⟩
  | succ n ih =>
    obtain ⟨d₁, hrun, hat, hstore⟩ := ih (by omega) (by omega)
    obtain ⟨m, hm⟩ : ∃ m, all[k + n]? = some m :=
      ⟨_, List.getElem?_eq_getElem (by omega)⟩
    have hlast : m = .uniqueProperties → k + (n + 1) = all.length := by
      rintro rfl
      exact uniqueProperties_last hm
    obtain ⟨d₂, htake, hat₂, hstore₂⟩ := hat.take hm fun hm' => hstore ▸ hpairs (hlast hm')
    refine ⟨d₂, ?_, hat₂, hstore₂.trans hstore⟩
    have hdrop : (all.drop k)[n]? = some m := by
      rw [List.getElem?_drop, hm]
    rw [List.take_add_one, hdrop]
    exact (takes_append hrun m).trans htake

/-- What stops the last step: its index is over pairs of which one occurs twice. -/
def notOnePerPair : Failure :=
  .running .uniqueProperties (.notUnique Definition.uniquePairs.name)

theorem AtStep.take_uniqueProperties (h : d.AtStep 2) (hpairs : ¬ d.store.OnePerPair) :
    d.take .uniqueProperties = .error notOnePerPair := by
  have hnew : d.has .uniquePairs = false := by
    rw [has, h.made]
    decide
  have htable : d.has (.table .properties) = true := by
    rw [has, h.made]
    decide
  have hrows : arePairsUnique d.store.properties = false := by
    rw [← Bool.not_eq_true, arePairsUnique_iff]
    exact hpairs
  have hdefine : d.define .uniquePairs = .error (.notUnique Definition.uniquePairs.name) := by
    simp [define, hnew, fault, htable, hrows]
  simp [Database.take, definitions, hdefine, bind, Except.bind, notOnePerPair]

theorem Took.takes (h : d.Took k) (hpairs : d.store.OnePerPair) :
    ∃ d', (all.drop k).foldlM Database.take d.tracked = .ok d' ∧ d'.AtStep all.length ∧
      d'.store = d.store := by
  have hle := h.atStep.le
  have hlast : k + (all.length - k) = all.length := by omega
  obtain ⟨d', hrun, hat, hstore⟩ := h.atStep.run (n := all.length - k) (by omega)
    fun _ => h.store_tracked ▸ hpairs
  rw [List.take_of_length_le (by simp)] at hrun
  exact ⟨d', hrun, hlast ▸ hat, hstore.trans h.store_tracked⟩

theorem Took.takes_error (h : d.Took k) (hpairs : ¬ d.store.OnePerPair) :
    k < all.length ∧ (all.drop k).foldlM Database.take d.tracked = .error notOnePerPair := by
  have hat := h.atStep
  have hstore : d.tracked.store = d.store := h.store_tracked
  have hlt : k < all.length := by
    refine Nat.lt_of_le_of_ne hat.le ?_
    rintro rfl
    refine hpairs (hstore ▸ hat.rows.pairs ?_)
    rw [hat.made]
    decide
  have hlength : all.length = 3 := rfl
  have htwo : k + (2 - k) = 2 := by omega
  obtain ⟨d₂, hrun, hat₂, hstore₂⟩ := hat.run (n := 2 - k) (by omega) (by omega)
  have hsplit : all.drop k = (all.drop k).take (2 - k) ++ [.uniqueProperties] := by
    match k, hlt with
    | 0, _ | 1, _ | 2, _ => rfl
  refine ⟨hlt, ?_⟩
  rw [hsplit, takes_append hrun]
  exact (htwo ▸ hat₂).take_uniqueProperties (hstore₂ ▸ hstore ▸ hpairs)

/-! ## Openings -/

theorem AtStep.keyed (h : d.AtStep all.length) : d.store.Keyed := by
  refine h.rows.keyed ?_
  rw [h.made]
  decide

theorem opened_of_migrate (h : d.migrate = .ok d') : d.opened = d' := by
  simp [opened, h]

theorem openings_of_settled (h : d.migrate = .ok d) :
    d.openings n = List.replicate n d.applied := by
  induction n with
  | zero => rfl
  | succ n ih => simp [openings, h, ih, List.replicate_succ]

theorem AtStep.migrate_last (h : d.AtStep all.length) : d.migrate = .ok d := by
  rw [migrate_eq (k := all.length) (h.tracked.symm ▸ h.applied), h.tracked]
  rfl

/-- A database in which the first steps were taken, with whatever rows these allow, and a new file
as well. If no two properties stand for one object and field, opening takes the steps that remain,
each once and in order, records every name once, leaves all rows as they were, with keys as the
board relies on them, and opening again changes nothing. If two do, the last step remains and fails,
and nothing changes. -/
theorem opening_settles (h : d.Took k) :
    (d.store.OnePerPair →
      ∃ d', d.migrate = .ok d' ∧
        (all.drop k).foldlM Database.take d.tracked = .ok d' ∧
        d'.applied = d.tracked.applied ++ (all.drop k).map name ∧
        d'.applied = all.map name ∧ d'.applied.Nodup ∧
        d'.store = d.store ∧ d'.AtStep all.length ∧ d'.store.Keyed ∧
        d'.migrate = .ok d' ∧
        ∀ n, opened^[n] d' = d' ∧ d'.openings n = List.replicate n d'.applied) ∧
    (¬ d.store.OnePerPair →
      k < all.length ∧ d.migrate = .error notOnePerPair ∧ d.opened = d) := by
  have hmigrate := migrate_eq h.atStep.applied
  constructor
  · intro hpairs
    obtain ⟨d', hrun, hat, hstore⟩ := h.takes hpairs
    have hall : d'.applied = all.map name := hat.applied
    have hagain : d'.migrate = .ok d' := hat.migrate_last
    refine ⟨d', hmigrate.trans hrun, hrun, ?_, hall, hall ▸ names_nodup, hstore, hat, hat.keyed,
      hagain, ?_⟩
    · rw [hall, h.atStep.applied, ← List.map_append, List.take_append_drop]
    · intro n
      exact ⟨Function.iterate_fixed (opened_of_migrate hagain) n, openings_of_settled hagain⟩
  · intro hpairs
    obtain ⟨hlt, hrun⟩ := h.takes_error hpairs
    refine ⟨hlt, hmigrate.trans hrun, ?_⟩
    simp [opened, hmigrate, hrun]

/-- Two posts with an owner each, left by the steps before the last; or one post with two. -/
def twoOwners (first second : String) : Database where
  made := madeBy 2
  applied := ["0001_schema", "0002_host"]
  store := {
    fields := [⟨"owner", "", "Owner", "user", "[]", 0, "u"⟩]
    properties := [
      ⟨"p1", first, "post", "owner", "[\"u1\"]", "c", "t"⟩,
      ⟨"p2", second, "post", "owner", "[\"u2\"]", "c", "t"⟩]
    channels := [⟨"c", "t", "c", "O"⟩]
    roles := [⟨"c", "u", "admin"⟩] }

theorem twoOwners_took (first second : String) : (twoOwners first second).Took 2 := by
  have htables : ∀ t, .table t ∈ madeBy 2 := by
    intro t
    cases t <;> decide
  have hindex : .uniquePairs ∉ madeBy 2 := by decide
  have hids : ["p1", "p2"].Nodup := by decide
  exact Or.inr
    { le := by decide
      made := rfl
      applied := rfl
      rows :=
        { empty := fun t ht => absurd (htables t) ht
          fields := List.nodup_singleton _
          properties := hids
          fieldOf := by
            intro p hp
            simp only [twoOwners, List.mem_cons, List.not_mem_nil, or_false] at hp
            obtain rfl | rfl := hp <;> rfl
          views := List.nodup_nil
          members := List.nodup_nil
          viewOf := List.forall_mem_nil _
          channels := List.nodup_singleton _
          roles := List.nodup_singleton _
          posts := List.nodup_nil
          pairs := fun hmem => absurd hmem hindex } }

theorem two_posts_are_kept :
    (twoOwners "post1" "post2").Took 2 ∧ (twoOwners "post1" "post2").store.OnePerPair ∧
      ∃ d', (twoOwners "post1" "post2").migrate = .ok d' ∧
        d'.applied = all.map name ∧ d'.store = (twoOwners "post1" "post2").store ∧
        d'.migrate = .ok d' := by
  have htook := twoOwners_took "post1" "post2"
  have hpairs : (twoOwners "post1" "post2").store.OnePerPair := by
    unfold OnePerPair
    decide
  obtain ⟨d', hmigrate, -, -, happlied, -, hstore, -, -, hagain, -⟩ :=
    (opening_settles htook).1 hpairs
  exact ⟨htook, hpairs, d', hmigrate, happlied, hstore, hagain⟩

/-- The tables of the first two steps let one post have two owners, and no run gets past the last
step then. -/
theorem repeated_pair_stops_opening :
    (twoOwners "post1" "post1").Took 2 ∧
      (twoOwners "post1" "post1").migrate = .error notOnePerPair ∧
      ¬ ∃ d', (twoOwners "post1" "post1").migrate = .ok d' := by
  have hmigrate : (twoOwners "post1" "post1").migrate = .error notOnePerPair := rfl
  refine ⟨twoOwners_took "post1" "post1", hmigrate, ?_⟩
  rintro ⟨d', hok⟩
  rw [hmigrate] at hok
  cases hok

end Database
end PropertyBoard
