/-!
# PropertyBoard.Dict

Finite maps from texts, kept in the order of their keys. Texts are ordered by code point, which is
also the order of their UTF-8 octets.

* `Dict`: entries with strictly ascending keys, so that a map has one representation.
* `insert`: a later entry replaces an earlier one of the same key.
* `ofList`: the map of a list of entries; `ofList_entries` says that the entries of a map give the
  map back.
-/

namespace PropertyBoard

structure Dict (α : Type) where
  entries : List (String × α)
  ascending : entries.Pairwise (fun a b => a.1 < b.1) := by simp

namespace Dict

variable {α β : Type}

theorem ext {d e : Dict α} (h : d.entries = e.entries) : d = e := by
  cases d
  cases e
  cases h
  rfl

instance [DecidableEq α] : DecidableEq (Dict α) := fun d e =>
  if h : d.entries = e.entries then isTrue (ext h)
  else isFalse fun he => h (congrArg entries he)

instance [Repr α] : Repr (Dict α) where
  reprPrec d n := reprPrec d.entries n

def empty : Dict α :=
  { entries := [] }

instance : Inhabited (Dict α) := ⟨empty⟩

def isEmpty (d : Dict α) : Bool :=
  d.entries.isEmpty

def keys (d : Dict α) : List String :=
  d.entries.map Prod.fst

def get? (d : Dict α) (k : String) : Option α :=
  d.entries.lookup k

/-- Puts an entry at its place, over an earlier entry of the same key. -/
def insertEntry (k : String) (a : α) : List (String × α) → List (String × α)
  | [] => [(k, a)]
  | (k', a') :: rest =>
    if k < k' then (k, a) :: (k', a') :: rest
    else if k = k' then (k, a) :: rest
    else (k', a') :: insertEntry k a rest

theorem fst_of_mem_insertEntry {k : String} {a : α} {x : String × α} :
    ∀ {es : List (String × α)}, x ∈ insertEntry k a es → x.1 = k ∨ x ∈ es
  | [], h => by
    simp only [insertEntry, List.mem_singleton] at h
    exact .inl (by rw [h])
  | (k', a') :: rest, h => by
    simp only [insertEntry] at h
    split at h
    · rcases List.mem_cons.1 h with rfl | h
      · exact .inl rfl
      · exact .inr h
    · split at h
      · rcases List.mem_cons.1 h with rfl | h
        · exact .inl rfl
        · exact .inr (List.mem_cons_of_mem _ h)
      · rcases List.mem_cons.1 h with rfl | h
        · exact .inr List.mem_cons_self
        · rcases fst_of_mem_insertEntry h with h | h
          · exact .inl h
          · exact .inr (List.mem_cons_of_mem _ h)

theorem insertEntry_ascending (k : String) (a : α) :
    ∀ {es : List (String × α)}, es.Pairwise (fun x y => x.1 < y.1) →
      (insertEntry k a es).Pairwise (fun x y => x.1 < y.1)
  | [], _ => by simp [insertEntry]
  | (k', a') :: rest, h => by
    obtain ⟨hhead, htail⟩ := List.pairwise_cons.1 h
    simp only [insertEntry]
    split
    · rename_i hlt
      refine List.pairwise_cons.2 ⟨?_, h⟩
      intro y hy
      rcases List.mem_cons.1 hy with rfl | hy
      · exact hlt
      · exact String.lt_trans hlt (hhead y hy)
    · rename_i hnlt
      split
      · rename_i heq
        subst heq
        exact List.pairwise_cons.2 ⟨hhead, htail⟩
      · rename_i hne
        refine List.pairwise_cons.2 ⟨?_, insertEntry_ascending k a htail⟩
        intro y hy
        rcases fst_of_mem_insertEntry hy with hy | hy
        · rw [hy]
          exact Std.lt_of_le_of_ne (String.not_lt.1 hnlt) (Ne.symm hne)
        · exact hhead y hy

def insert (d : Dict α) (k : String) (a : α) : Dict α where
  entries := insertEntry k a d.entries
  ascending := insertEntry_ascending k a d.ascending

theorem mem_insertEntry {k : String} {a : α} {x : String × α} {es : List (String × α)}
    (h : x ∈ insertEntry k a es) : x = (k, a) ∨ x ∈ es := by
  induction es with
  | nil => exact .inl (List.mem_singleton.1 h)
  | cons e rest ih =>
    simp only [insertEntry] at h
    split at h
    · exact List.mem_cons.1 h
    · split at h
      · exact (List.mem_cons.1 h).imp_right (List.mem_cons_of_mem e)
      · rcases List.mem_cons.1 h with rfl | h
        · exact .inr List.mem_cons_self
        · exact (ih h).imp_right (List.mem_cons_of_mem e)

theorem mem_keys_insertEntry {k k' : String} {a : α} {es : List (String × α)} :
    k' ∈ (insertEntry k a es).map Prod.fst ↔ k' = k ∨ k' ∈ es.map Prod.fst := by
  induction es with
  | nil => simp [insertEntry]
  | cons e rest ih =>
    simp only [insertEntry]
    split
    · simp
    · split
      · rename_i heq
        simp [heq]
      · rw [List.map_cons, List.mem_cons, ih, List.map_cons, List.mem_cons]
        exact or_left_comm

/-- A map with a new entry has one more key, if that is new. -/
theorem mem_keys_insert {d : Dict α} {k k' : String} {a : α} :
    k' ∈ (d.insert k a).keys ↔ k' = k ∨ k' ∈ d.keys :=
  mem_keys_insertEntry

/-- The map of the entries, where the last entry of a key counts. -/
def ofList (es : List (String × α)) : Dict α :=
  es.foldl (fun d e => d.insert e.1 e.2) empty

/-- An entry whose key lies above all others goes to the end. -/
theorem insertEntry_of_above {k : String} {a : α} :
    ∀ {es : List (String × α)}, (∀ e ∈ es, e.1 < k) → insertEntry k a es = es ++ [(k, a)]
  | [], _ => rfl
  | (k', a') :: rest, h => by
    have hk : k' < k := h (k', a') List.mem_cons_self
    have h1 : ¬ k < k' := fun hlt => String.lt_irrefl k (String.lt_trans hlt hk)
    have h2 : k ≠ k' := fun heq => String.lt_irrefl k (heq ▸ hk)
    simp only [insertEntry, h1, h2, if_false, List.cons_append]
    rw [insertEntry_of_above fun e he => h e (List.mem_cons_of_mem _ he)]

theorem foldl_insert_entries (es : List (String × α)) :
    ∀ d : Dict α, (d.entries ++ es).Pairwise (fun x y => x.1 < y.1) →
      (es.foldl (fun d e => d.insert e.1 e.2) d).entries = d.entries ++ es := by
  induction es with
  | nil => intro d _; simp
  | cons e es ih =>
    intro d h
    have habove : ∀ x ∈ d.entries, x.1 < e.1 := fun x hx =>
      (List.pairwise_append.1 h).2.2 x hx e List.mem_cons_self
    have hins : (d.insert e.1 e.2).entries = d.entries ++ [e] := by
      simp [insert, insertEntry_of_above habove]
    simp only [List.foldl_cons]
    rw [ih (d.insert e.1 e.2) (by simpa [hins] using h), hins]
    simp

theorem ofList_entries (d : Dict α) : ofList d.entries = d := by
  refine ext ?_
  have := foldl_insert_entries d.entries empty (by simpa [empty] using d.ascending)
  simpa [ofList, empty] using this

end Dict
end PropertyBoard
