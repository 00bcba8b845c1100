import PropertyBoard.Proofs.Keys

/-!
# PropertyBoard.Proofs.Drawn

A new identifier is that of nothing else.

* `Call.Forward`: a call never takes back an identifier, nor changes their source.
  `ServiceCall.forward_run`: no call does.
* `Board.Drawn`: the identifiers on a board were drawn on it. A call adds none but the one it draws
  (`Store.ids_of_writes`), so this always holds (`Board.Reachable.drawn_ids`).
* `Board.Reachable.unused`: so the next identifier is not in use.
-/

namespace PropertyBoard

open Store

/-! ## Identifiers are drawn one after the other -/

namespace Call

variable {α β : Type}

/-- A call after which at least as many identifiers are drawn, of the same source. -/
def Forward (c : Call α) : Prop :=
  ∀ b, b.drawn ≤ (c.on b).2.drawn ∧ (c.on b).2.source = b.source

theorem forward_pure (a : α) : (pure a : Call α).Forward := by
  intro b
  exact ⟨Nat.le_refl _, rfl⟩

theorem forward_check (x : Except Refusal α) : (check x).Forward := by
  intro b
  exact ⟨Nat.le_refl _, rfl⟩

theorem forward_look (read : Store → Except Refusal α) : (look read).Forward := by
  intro b
  exact ⟨Nat.le_refl _, rfl⟩

theorem forward_now : now.Forward := by
  intro b
  exact ⟨Nat.le_refl _, rfl⟩

theorem forward_drawId : drawId.Forward := by
  intro b
  exact ⟨Nat.le_succ _, rfl⟩

theorem forward_make (change : Change α) : (make change).Forward := by
  intro b
  unfold on make
  rcases change b.store with e | ⟨a, s⟩ <;> exact ⟨Nat.le_refl _, rfl⟩

theorem Forward.bind {x : Call α} {f : α → Call β} (hx : x.Forward) (hf : ∀ a, (f a).Forward) :
    (x >>= f).Forward := by
  intro b
  have hb := hx b
  rw [on_bind]
  rcases h : x.on b with ⟨e | a, b₁⟩
  · rw [h] at hb
    exact hb
  · rw [h] at hb
    obtain ⟨hle, hsource⟩ := hf a b₁
    exact ⟨Nat.le_trans hb.1 hle, hsource.trans hb.2⟩

end Call

namespace ServiceCall

open Call

theorem forward_silent {α : Type} {c : Call α} (h : c.Forward) : (silent c).Forward := by
  intro b
  rw [on_silent]
  exact h b

/-- Whatever is called, no identifier is taken back. -/
theorem forward_run (c : ServiceCall) : c.run.Forward := by
  cases c <;> rw [run]
  case createField r userId =>
    refine forward_silent ?_
    unfold Fields.create
    split
    · exact forward_check _
    · exact (forward_check _).bind fun _ => forward_drawId.bind fun _ => forward_now.bind fun _ =>
        (forward_check _).bind fun _ => (forward_make _).bind fun _ => forward_pure _
  case updateField id r userId =>
    refine forward_silent ?_
    unfold Fields.update
    split
    · exact forward_check _
    · exact (forward_check _).bind fun _ => forward_now.bind fun _ =>
        (forward_check _).bind fun _ => (forward_make _).bind fun _ => forward_pure _
  case deleteField id => exact forward_silent (forward_make _)
  case createProperty input userId =>
    exact forward_silent ((forward_look _).bind fun _ => (forward_check _).bind fun _ =>
      (forward_look _).bind fun _ => forward_drawId.bind fun _ => (forward_check _).bind fun _ =>
      (forward_make _).bind fun _ => forward_pure _)
  case updateProperty id raw userId =>
    exact forward_silent ((forward_make _).bind fun _ => forward_look _)
  case deleteProperty id => exact forward_make _
  case resyncObject objectId =>
    refine forward_silent ((forward_look _).bind fun ps => ?_)
    cases ps with
    | nil => exact forward_pure _
    | cons first rest => exact (forward_look _).bind fun _ => forward_make _
  case createView r =>
    exact forward_silent ((forward_check _).bind fun _ => forward_drawId.bind fun _ =>
      forward_now.bind fun _ => (forward_check _).bind fun _ => (forward_check _).bind fun _ =>
      (forward_make _).bind fun _ => forward_pure _)
  case updateView id p => exact forward_silent ((forward_check _).bind fun _ => forward_make _)
  case addMember userId viewId => exact (forward_check _).bind fun _ => forward_make _
  all_goals exact forward_silent (forward_look _)

/-- Whether a call draws an identifier for what it adds. -/
def Draws : ServiceCall → Prop
  | createField _ _ => True
  | createProperty _ _ => True
  | createView _ => True
  | _ => False

theorem drawn_of_ok {c : ServiceCall} (hc : c.Draws) {b b' : Board}
    (h : c.run.on b = (.ok (), b')) : b'.drawn = b.drawn + 1 := by
  cases c with
  | createField r userId =>
    obtain ⟨f, hok⟩ := silent_eq_ok.1 h
    obtain ⟨_, _, _, _, _, _, _, rfl⟩ := Fields.create_eq_ok.1 hok
    rfl
  | createProperty input userId =>
    obtain ⟨p, hok⟩ := silent_eq_ok.1 h
    obtain ⟨_, _, _, _, _, _, _, _, _, _, rfl⟩ := Properties.create_eq_ok.1 hok
    rfl
  | createView r =>
    obtain ⟨v, hok⟩ := silent_eq_ok.1 h
    obtain ⟨_, _, _, _, _, _, _, _, rfl⟩ := Views.create_eq_ok.1 hok
    rfl
  | _ => exact hc.elim

end ServiceCall

/-! ## Identifiers in use -/

namespace Store

/-- The identifiers of fields, properties and views. -/
def ids (s : Store) : List String :=
  s.fields.map FieldRow.id ++ s.properties.map PropertyRow.id ++ s.views.map ViewRow.id

theorem mem_ids {s : Store} {id : String} :
    id ∈ s.ids ↔ id ∈ s.fields.map FieldRow.id ∨ id ∈ s.properties.map PropertyRow.id ∨
      id ∈ s.views.map ViewRow.id := by
  rw [ids, List.mem_append, List.mem_append, or_assoc]

theorem propertyIds_of_keys {rows rows' : List PropertyRow}
    (h : rows'.map PropertyRow.keys = rows.map PropertyRow.keys) :
    rows'.map PropertyRow.id = rows.map PropertyRow.id := by
  have hids := congrArg (List.map Prod.fst) h
  rwa [List.map_map, List.map_map] at hids

theorem sublist_of_eq {κ : Type} {l l' : List κ} (h : l = l') : l.Sublist l' :=
  h ▸ .refl l

/-- Where no table has a new identifier, there is none. -/
theorem old_of_mem_ids {s s' : Store} {id : String} (hid : id ∈ s'.ids)
    (hfields : (s'.fields.map FieldRow.id).Sublist (s.fields.map FieldRow.id))
    (hproperties : (s'.properties.map PropertyRow.id).Sublist (s.properties.map PropertyRow.id))
    (hviews : (s'.views.map ViewRow.id).Sublist (s.views.map ViewRow.id)) : id ∈ s.ids :=
  mem_ids.2 ((mem_ids.1 hid).imp (fun h => hfields.subset h)
    (Or.imp (fun h => hproperties.subset h) fun h => hviews.subset h))

/-- A call adds no identifier but the one it draws. -/
theorem ids_of_writes {b : Board} {c : ServiceCall} {s' : Store}
    (h : ServiceCall.Writes b c s') {id : String} (hid : id ∈ s'.ids) :
    id ∈ b.store.ids ∨ c.Draws ∧ id = b.nextId := by
  cases h with
  | nothing => exact .inl hid
  | @createField r userId text input f _ hf _ _ =>
    rw [mem_ids, List.map_append, List.mem_append, or_assoc] at hid
    rcases hid with hid | hid | hid
    · exact .inl (mem_ids.2 (.inl hid))
    · rw [List.map_singleton, List.mem_singleton] at hid
      exact .inr ⟨trivial, by rw [hid, hf]; rfl⟩
    · exact .inl (mem_ids.2 (.inr hid))
  | @updateField id r userId text input f _ _ _ _ _ =>
    refine .inl (old_of_mem_ids hid ?_ ?_ (.refl _))
    · exact sublist_of_eq (fieldIds_replaced f text _)
    · exact sublist_of_eq (propertyIds_of_keys (keys_conformedTo f _))
  | @deleteField id _ =>
    refine .inl (old_of_mem_ids hid ?_ ?_ (.refl _))
    · exact List.filter_sublist.map _
    · exact (List.filter_sublist.trans List.filter_sublist).map _
  | @createProperty input userId text f value scope r _ _ _ _ hr _ =>
    rw [mem_ids, propertyIds_of_keys (keys_stamped _ _ _), List.map_append, List.mem_append] at hid
    rcases hid with hid | (hid | hid) | hid
    · exact .inl (mem_ids.2 (.inl hid))
    · exact .inl (mem_ids.2 (.inr (.inl hid)))
    · rw [List.map_singleton, List.mem_singleton] at hid
      exact .inr ⟨trivial, by rw [hid, hr]; rfl⟩
    · exact .inl (mem_ids.2 (.inr (.inr hid)))
  | @updateProperty id raw userId text p f value _ _ _ _ =>
    refine .inl (old_of_mem_ids hid (.refl _) ?_ (.refl _))
    exact sublist_of_eq (map_id_withValue id text _)
  | deleteProperty =>
    exact .inl (old_of_mem_ids hid (.refl _) (List.filter_sublist.map _) (.refl _))
  | resyncObject _ _ =>
    refine .inl (old_of_mem_ids hid (.refl _) ?_ (.refl _))
    exact sublist_of_eq (propertyIds_of_keys (keys_stamped _ _ _))
  | @createView r input v queryText layoutText _ hv _ _ _ =>
    rw [mem_ids, List.map_append, List.mem_append, ← or_assoc, ← or_assoc] at hid
    rcases hid with hid | hid
    · exact .inl (mem_ids.2 (or_assoc.1 hid))
    · rw [List.map_singleton, List.mem_singleton] at hid
      exact .inr ⟨trivial, by rw [hid, hv]; rfl⟩
  | updateView _ hq _ =>
    refine .inl (old_of_mem_ids hid (.refl _) (.refl _) ?_)
    exact sublist_of_eq (viewIds_updated hq _)
  | addMember => exact .inl hid

end Store

namespace Board

/-- The identifiers on a board were drawn on it. -/
def Drawn (b : Board) : Prop :=
  ∀ id ∈ b.store.ids, ∃ n ≤ b.drawn, id = b.source.nth n

theorem drawn_le_after (b : Board) (a : Action) :
    b.drawn ≤ (b.after a).drawn ∧ (b.after a).source = b.source := by
  cases a with
  | call c => exact c.forward_run b
  | host w =>
    rw [after]
    split <;> exact ⟨Nat.le_refl _, rfl⟩
  | setClock now => exact ⟨Nat.le_refl _, rfl⟩

theorem Drawn.after {b : Board} (hb : b.Reachable) (h : b.Drawn) (a : Action) :
    (b.after a).Drawn := by
  intro id hid
  obtain ⟨hle, hsource⟩ := b.drawn_le_after a
  rw [hsource]
  have hold : id ∈ b.store.ids → ∃ n ≤ (b.after a).drawn, id = b.source.nth n := by
    intro hid
    obtain ⟨n, hn, hnth⟩ := h id hid
    exact ⟨n, Nat.le_trans hn hle, hnth⟩
  rcases b.after_cases a with ⟨hfields, hproperties, hviews, _⟩ | ⟨c, rfl, hok⟩
  · rw [Store.ids, hfields, hproperties, hviews] at hid
    exact hold hid
  · have hw := ServiceCall.writes_of_ok hb.keyed.properties hok
    rcases Store.ids_of_writes hw hid with hid | ⟨hdraws, hnth⟩
    · exact hold hid
    · exact ⟨b.drawn + 1, Nat.le_of_eq (ServiceCall.drawn_of_ok hdraws hok).symm, hnth⟩

theorem Reachable.drawn_ids {b : Board} (h : b.Reachable) : b.Drawn :=
  h.induct (P := Drawn) (fun _ _ => by simp [Drawn, Store.ids]) fun _ a hb hd => hd.after hb a

/-- The identifier that is drawn next is not in use. -/
theorem Reachable.unused {b : Board} (h : b.Reachable) :
    b.nextId ∉ b.store.ids := by
  intro hid
  obtain ⟨n, hn, hnth⟩ := h.drawn_ids _ hid
  have := b.source.distinct hnth
  omega

end Board
end PropertyBoard
