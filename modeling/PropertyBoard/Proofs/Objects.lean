import PropertyBoard.Store.Objects

/-!
# PropertyBoard.Proofs.Objects

The rows of objects, by the properties that they come from.

* `Store.mem_objectKeys`, `Store.mem_objects`: an object is there if it has a property.
* `Store.scope_objectRow_of_key`, `Store.scope_objectRow`: where all properties of an object have one
  scope, its row has that scope.
-/

namespace PropertyBoard
namespace Store

variable {s : Store}

theorem mem_objectKeys {key : String × String} :
    key ∈ s.objectKeys ↔ ∃ p ∈ s.properties, p.objectKey = key := by
  rw [objectKeys, List.mem_eraseDups, List.mem_map]

theorem mem_objects {row : ObjectRow} :
    row ∈ s.objects ↔ ∃ p ∈ s.properties, row = s.objectRow p.objectKey := by
  rw [objects, List.mem_map]
  constructor
  · rintro ⟨key, hkey, rfl⟩
    obtain ⟨p, hp, rfl⟩ := mem_objectKeys.1 hkey
    exact ⟨p, hp, rfl⟩
  · rintro ⟨p, hp, rfl⟩
    exact ⟨p.objectKey, mem_objectKeys.2 ⟨p, hp, rfl⟩, rfl⟩

/-! ## The greatest text -/

theorem not_lt_empty (t : String) : ¬t < "" := by
  rw [String.not_lt]
  exact List.nil_le t.toList

theorem foldl_greatest_same {t : String} {texts : List String} (h : ∀ u ∈ texts, u = t) :
    texts.foldl (fun m u => if m < u then u else m) t = t := by
  induction texts with
  | nil => rfl
  | cons u rest ih =>
    obtain ⟨rfl, hrest⟩ := List.forall_mem_cons.1 h
    rw [List.foldl_cons, if_neg (String.lt_irrefl u)]
    exact ih hrest

/-- The greatest of texts that are all the same. -/
theorem greatest_same {t : String} {texts : List String} (hne : texts ≠ [])
    (h : ∀ u ∈ texts, u = t) : greatest texts = t := by
  cases texts with
  | nil => exact absurd rfl hne
  | cons u rest =>
    obtain ⟨rfl, hrest⟩ := List.forall_mem_cons.1 h
    have hfirst : (if "" < u then u else "") = u := by
      split
      · rfl
      · rename_i hlt
        exact String.le_antisymm (String.not_lt.1 (not_lt_empty u)) (String.not_lt.1 hlt)
    rw [greatest, List.foldl_cons, hfirst]
    exact foldl_greatest_same hrest

/-- Where all properties of an object, told by its identifier and type, have one scope, its row has
that scope. -/
theorem scope_objectRow_of_key {p : PropertyRow} (hp : p ∈ s.properties)
    (h : ∀ q ∈ s.properties, q.objectKey = p.objectKey → q.scope = p.scope) :
    (s.objectRow p.objectKey).channelId = p.channelId ∧
      (s.objectRow p.objectKey).teamId = p.teamId := by
  have hrow : p ∈ s.properties.filter fun q => q.objectKey = p.objectKey := by
    simp [hp]
  have hscope : ∀ q ∈ s.properties.filter fun q => q.objectKey = p.objectKey,
      q.channelId = p.channelId ∧ q.teamId = p.teamId := by
    intro q hq
    obtain ⟨hq, hkey⟩ := List.mem_filter.1 hq
    have := h q hq (by simpa using hkey)
    simpa [PropertyRow.scope] using this
  constructor
  · refine greatest_same (List.ne_nil_of_mem (List.mem_map_of_mem hrow)) ?_
    intro u hu
    obtain ⟨q, hq, rfl⟩ := List.mem_map.1 hu
    exact (hscope q hq).1
  · refine greatest_same (List.ne_nil_of_mem (List.mem_map_of_mem hrow)) ?_
    intro u hu
    obtain ⟨q, hq, rfl⟩ := List.mem_map.1 hu
    exact (hscope q hq).2

theorem scope_objectRow {p : PropertyRow} (hp : p ∈ s.properties)
    (h : ∀ q ∈ s.properties, q.objectId = p.objectId → q.scope = p.scope) :
    (s.objectRow p.objectKey).channelId = p.channelId ∧
      (s.objectRow p.objectKey).teamId = p.teamId :=
  scope_objectRow_of_key hp fun q hq hkey => h q hq (Prod.mk.inj hkey).1

end Store
end PropertyBoard
