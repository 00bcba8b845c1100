import PropertyBoard.Named
import PropertyBoard.Proofs.Json.Reader

/-!
# PropertyBoard.Proofs.Json.Lawful

Codecs that read back what they write.

* `Codec.Keeps c room a`: what `c` writes for `a` is plain, has the shape that `c` asks for as long
  as `room` levels of nesting are left, and is taken for `a` again.
* `Codec.Keeps.read`: then `a` is read from its text.
* `Codec.keeps_list`, `Codec.keeps_dict`: a list or a map is kept where its items are, with one more
  level. Writing, checking and taking go through the items in the same order, so each is one
  induction over them.
* `Codec.Fills`: the members of a record stand in the order of its slots, each as its codec writes
  it or `null` where the slot allows that. `Codec.Fills.keeps`: a record of such members is kept.
-/

namespace PropertyBoard

/-- An integer is read from its digits. -/
theorem Numeral.int?_toText (n : Int) : Numeral.int? (Decimal.toText n) = some n := by
  unfold Numeral.int?
  rw [Decimal.toText, String.toList_ofList]
  cases n with
  | ofNat n =>
    -- A natural number is not written with a sign.
    have hsign : ∀ cs, Decimal.digits n ≠ '-' :: cs := by
      rintro cs h
      rcases Reader.digits_cases n with h' | ⟨c, _, h', _, hall⟩
      · rw [h'] at h
        cases h
      · rw [h'] at h
        cases h
        exact absurd (hall '-' List.mem_cons_self) (by decide)
    rw [Decimal.intChars]
    split
    · exact absurd ‹_› (hsign _)
    · rw [Decimal.value?_digits]
      rfl
  | negSucc n =>
    simp only [Decimal.intChars, Decimal.value?_digits]
    rfl

namespace Codec

variable {α : Type} {c : Codec α} {room : Nat}

/-- A value is written plainly, in the shape that the codec reads, and is read back. -/
structure Keeps (c : Codec α) (room : Nat) (a : α) : Prop where
  plain : (c.encode a).isPlain = true
  shaped : Shape.check room c.shape (Draft.ofJson (c.encode a)) = .ok (c.encode a)
  decoded : c.decode (c.encode a) = some a

theorem Keeps.read {a : α} (h : c.Keeps maxDepth a) : c.read (c.encode a).text = .ok a := by
  have hread : c.shape.read (c.encode a).text = .ok (c.encode a) := by
    simp [Shape.read, Draft.read_text _ h.plain, h.shaped]
  simp [Codec.read, hread, ofPlain, h.decoded]

theorem keeps_text (s : String) : text.Keeps room s where
  plain := rfl
  shaped := by simp [text, Draft.ofJson, Shape.check]
  decoded := rfl

theorem keeps_named [Named α] {a : α} (hall : a ∈ (Named.all : List α))
    (hname : Named.ofName? (Named.name a) = some a) : Named.codec.Keeps room a where
  plain := rfl
  shaped := by
    have hmem : Named.name a ∈ Named.names α := List.mem_map_of_mem hall
    simp [Named.codec, Draft.ofJson, Shape.check, hmem]
  decoded := by simp [Named.codec, Json.text?, hname]

theorem keeps_int64 (n : Int64) : int64.Keeps room n where
  plain := rfl
  shaped := by
    have hrange : minInt64 ≤ n.toInt ∧ n.toInt ≤ maxInt64 :=
      ⟨n.le_toInt, Int.lt_add_one_iff.1 n.toInt_lt⟩
    simp [int64, Draft.ofJson, Shape.check, Shape.keepInt, Numeral.int?_toText, hrange]
  decoded := by simp [int64, Json.int?]

/-! ## Lists and maps -/

theorem arePlain_map {as : List α} (h : ∀ a ∈ as, c.Keeps room a) :
    Json.arePlain (as.map c.encode) = true := by
  induction as with
  | nil => rfl
  | cons a rest ih =>
    obtain ⟨ha, hrest⟩ := List.forall_mem_cons.1 h
    simp [Json.arePlain, ha.plain, ih hrest]

theorem checkItems_map {as : List α} (h : ∀ a ∈ as, c.Keeps room a) :
    ∀ done : List Json, Shape.checkItems room c.shape ((as.map c.encode).map Draft.ofJson) done =
      .ok (done.reverse ++ as.map c.encode) := by
  induction as with
  | nil => intro done; simp [Shape.checkItems]
  | cons a rest ih =>
    obtain ⟨ha, hrest⟩ := List.forall_mem_cons.1 h
    intro done
    simp only [List.map_cons, Shape.checkItems, ha.shaped, bind, Except.bind]
    rw [ih hrest]
    simp

theorem decodeAll_map {as : List α} (h : ∀ a ∈ as, c.Keeps room a) :
    ∀ done : List α, decodeAll c.decode (as.map c.encode) done = some (done.reverse ++ as) := by
  induction as with
  | nil => intro done; simp [decodeAll]
  | cons a rest ih =>
    obtain ⟨ha, hrest⟩ := List.forall_mem_cons.1 h
    intro done
    simp [decodeAll, ha.decoded, ih hrest]

theorem keeps_list {as : List α} (h : ∀ a ∈ as, c.Keeps room a) :
    (list c).Keeps (room + 1) as where
  plain := arePlain_map h
  shaped := by
    simp [list, Draft.ofJson, Reader.ofItems_eq, Shape.check, checkItems_map h, bind, Except.bind,
      -List.map_map]
  decoded := by simp [list, Json.items?, decodeAll_map h]

theorem membersPlain_map {es : List (String × α)} (h : ∀ e ∈ es, c.Keeps room e.2) :
    Json.membersPlain (es.map fun e => (e.1, c.encode e.2)) = true := by
  induction es with
  | nil => rfl
  | cons e rest ih =>
    obtain ⟨he, hrest⟩ := List.forall_mem_cons.1 h
    simp [Json.membersPlain, he.plain, ih hrest]

theorem checkEntries_map {es : List (String × α)} (h : ∀ e ∈ es, c.Keeps room e.2) :
    ∀ done : List (String × Json),
      Shape.checkEntries room c.shape
        ((es.map fun e => (e.1, c.encode e.2)).map fun m => (some m.1, Draft.ofJson m.2)) done =
      .ok (done.reverse ++ es.map fun e => (e.1, c.encode e.2)) := by
  induction es with
  | nil => intro done; simp [Shape.checkEntries]
  | cons e rest ih =>
    obtain ⟨he, hrest⟩ := List.forall_mem_cons.1 h
    intro done
    simp only [List.map_cons, Shape.checkEntries, he.shaped, bind, Except.bind]
    rw [ih hrest]
    simp

theorem decodeEntries_map {es : List (String × α)} (h : ∀ e ∈ es, c.Keeps room e.2) :
    ∀ done : List (String × α),
      decodeEntries c.decode (es.map fun e => (e.1, c.encode e.2)) done =
        some (done.reverse ++ es) := by
  induction es with
  | nil => intro done; simp [decodeEntries]
  | cons e rest ih =>
    obtain ⟨he, hrest⟩ := List.forall_mem_cons.1 h
    intro done
    simp [decodeEntries, he.decoded, ih hrest]

theorem keeps_dict {d : Dict α} (h : ∀ e ∈ d.entries, c.Keeps room e.2) :
    (dict c).Keeps (room + 1) d where
  plain := membersPlain_map h
  shaped := by
    -- The entries ascend already, so sorting them by key changes nothing.
    have hsorted : (Dict.ofList (d.entries.map fun e => (e.1, c.encode e.2))).entries =
        d.entries.map fun e => (e.1, c.encode e.2) :=
      congrArg Dict.entries (Dict.ofList_entries
        { entries := d.entries.map fun e => (e.1, c.encode e.2)
          ascending := List.pairwise_map.2 d.ascending })
    simp only [dict, Draft.ofJson, Reader.ofMembers_eq, Shape.check, List.reverse_nil,
      List.nil_append, checkEntries_map h, bind, Except.bind, if_true, hsorted]
  decoded := by simp [dict, Json.members?, decodeEntries_map h, Dict.ofList_entries]

theorem keeps_texts (ts : List String) : texts.Keeps (room + 1) ts :=
  keeps_list fun s _ => keeps_text s

theorem keeps_textLists (room : Nat) (d : Dict (List String)) : textLists.Keeps (room + 2) d :=
  keeps_dict fun e _ => keeps_texts e.2

/-! ## Records -/

theorem lookup_cons_of_ne {β : Type} {k name : String} {b : β} {l : List (String × β)}
    (h : k ≠ name) : ((name, b) :: l).lookup k = l.lookup k := by
  simp [List.lookup_cons, beq_eq_false_iff_ne.2 h]

/-- A value that may stand in a slot: of its shape, or `null` if the slot is nullable. -/
def Suits (room : Nat) (presence : Presence) (s : Shape) (j : Json) : Prop :=
  presence = .nullable ∧ j = .null ∨ Shape.check room s (Draft.ofJson j) = .ok j

/-- The members stand in the order of the slots, each suits its own, and no required one is
missing. -/
inductive Fills (room : Nat) : List Slot → List (String × Json) → Prop where
  | nil : Fills room [] []
  | cons {name : String} {presence : Presence} {s : Shape} {j : Json} {slots : List Slot}
      {members : List (String × Json)} (hplain : j.isPlain = true)
      (hsuits : Suits room presence s j) (rest : Fills room slots members) :
      Fills room ((name, presence, s) :: slots) ((name, j) :: members)
  | missing {name : String} {presence : Presence} {s : Shape} {slots : List Slot}
      {members : List (String × Json)} (hpresence : presence ≠ .required)
      (rest : Fills room slots members) :
      Fills room ((name, presence, s) :: slots) members

namespace Fills

variable {slots : List Slot} {members : List (String × Json)}

theorem member {a : α} {name : String} {presence : Presence} (ha : c.Keeps room a)
    (rest : Fills room slots members) :
    Fills room ((name, presence, c.shape) :: slots) ((name, c.encode a) :: members) :=
  .cons ha.plain (.inr ha.shaped) rest

theorem optional {name : String} (a? : Option α) (hc : ∀ a, c.Keeps room a)
    (rest : Fills room slots members) :
    Fills room ((name, .nullable, c.shape) :: slots) (c.encodeOptional name a? ++ members) := by
  cases a? with
  | none => exact .missing (by decide) rest
  | some a => exact .member (hc a) rest

theorem nullable {name : String} (a? : Option α) (hc : ∀ a, c.Keeps room a)
    (rest : Fills room slots members) :
    Fills room ((name, .nullable, c.shape) :: slots) ((name, c.encodeNullable a?) :: members) := by
  cases a? with
  | none => exact .cons rfl (.inl ⟨rfl, rfl⟩) rest
  | some a => exact .member (hc a) rest

theorem plain (h : Fills room slots members) : Json.membersPlain members = true := by
  induction h with
  | nil => rfl
  | cons hplain _ _ ih => simp [Json.membersPlain, hplain, ih]
  | missing _ _ ih => exact ih

theorem names_sublist (h : Fills room slots members) :
    (members.map Prod.fst).Sublist (slots.map Prod.fst) := by
  induction h with
  | nil => exact .slnil
  | cons _ _ _ ih => exact ih.cons_cons _
  | missing _ _ ih => exact ih.cons _

/-- Each member has a slot of its name, which it suits. -/
theorem lookup_slot (h : Fills room slots members) (hnames : (slots.map Prod.fst).Nodup) :
    ∀ m ∈ members, ∃ presence s, slots.lookup m.1 = some (presence, s) ∧
      Suits room presence s m.2 := by
  induction h with
  | nil => simp
  | @cons name presence s _ _ members _ hsuits rest ih =>
    obtain ⟨hname, hnames⟩ := List.nodup_cons.1 hnames
    intro m hm
    rcases List.mem_cons.1 hm with rfl | hm
    · exact ⟨presence, s, by simp, hsuits⟩
    · have hne : m.1 ≠ name := fun h =>
        hname (rest.names_sublist.subset (h ▸ List.mem_map_of_mem hm))
      simpa only [lookup_cons_of_ne hne] using ih hnames m hm
  | @missing name _ _ _ members _ rest ih =>
    obtain ⟨hname, hnames⟩ := List.nodup_cons.1 hnames
    intro m hm
    have hne : m.1 ≠ name := fun h =>
      hname (rest.names_sublist.subset (h ▸ List.mem_map_of_mem hm))
    simpa only [lookup_cons_of_ne hne] using ih hnames m hm

/-- Arranging goes by name, so any list with these members under the names of the slots will do. -/
theorem arrange (h : Fills room slots members) (hnames : (slots.map Prod.fst).Nodup) :
    ∀ found : List (String × Json),
      (∀ name ∈ slots.map Prod.fst, found.lookup name = members.lookup name) →
      Shape.arrange slots found = .ok members := by
  induction h with
  | nil => intro _ _; rfl
  | @cons name _ _ j slots members _ _ _ ih =>
    obtain ⟨hname, hnames⟩ := List.nodup_cons.1 hnames
    intro found hfound
    have hhead : found.lookup name = some j := by
      simpa [List.lookup_cons] using hfound name (by simp)
    have htail : Shape.arrange slots found = .ok members := by
      refine ih hnames found fun k hk => ?_
      have hne : k ≠ name := fun h => hname (h ▸ hk)
      simpa only [lookup_cons_of_ne hne] using hfound k (List.mem_cons_of_mem _ hk)
    simp only [Shape.arrange, hhead, htail, Except.map]
  | @missing name _ _ slots members hpresence rest ih =>
    obtain ⟨hname, hnames⟩ := List.nodup_cons.1 hnames
    intro found hfound
    have hhead : found.lookup name = none := by
      rw [hfound name (by simp), List.lookup_eq_none_iff]
      intro m hm
      have hne : name ≠ m.1 := fun h =>
        hname (h ▸ rest.names_sublist.subset (List.mem_map_of_mem hm))
      simpa using hne
    have htail := ih hnames found fun k hk => hfound k (List.mem_cons_of_mem _ hk)
    simp only [Shape.arrange, hhead, if_neg hpresence, htail]

end Fills

theorem eq_null_of_isNull {j : Json} (h : Shape.isNull (Draft.ofJson j) = true) : j = .null := by
  cases j <;> first | rfl | cases h

theorem Suits.check {presence : Presence} {s : Shape} {j : Json} (h : Suits room presence s j)
    (hnull : ¬(presence = .nullable ∧ Shape.isNull (Draft.ofJson j) = true)) :
    Shape.check room s (Draft.ofJson j) = .ok j := by
  rcases h with ⟨hpresence, rfl⟩ | h
  · exact absurd ⟨hpresence, rfl⟩ hnull
  · exact h

/-- Members of known names that are met once each are all found. -/
theorem checkSlots_map {slots : List Slot} {members : List (String × Json)}
    (h : ∀ m ∈ members, ∃ presence s, slots.lookup m.1 = some (presence, s) ∧
      Suits room presence s m.2)
    (hnames : (members.map Prod.fst).Nodup) :
    ∀ (seen : List String) (done : List (String × Json)), (∀ m ∈ members, m.1 ∉ seen) →
      Shape.checkSlots room slots seen (members.map fun m => (some m.1, Draft.ofJson m.2)) done =
        .ok (done.reverse ++ members) := by
  induction members with
  | nil => intro _ done _; simp [Shape.checkSlots]
  | cons m rest ih =>
    obtain ⟨⟨presence, s, hslot, hsuits⟩, hrest⟩ := List.forall_mem_cons.1 h
    obtain ⟨hname, hnames⟩ := List.nodup_cons.1 hnames
    intro seen done hseen
    obtain ⟨hfirst, hothers⟩ := List.forall_mem_cons.1 hseen
    have hunseen : ∀ m' ∈ rest, m'.1 ∉ m.1 :: seen := by
      intro m' hm' hseen'
      rcases List.mem_cons.1 hseen' with heq | hseen'
      · exact hname (heq ▸ List.mem_map_of_mem hm')
      · exact hothers m' hm' hseen'
    have hnext := ih hrest hnames (m.1 :: seen) (m :: done) hunseen
    simp only [List.reverse_cons, List.append_assoc, List.singleton_append] at hnext
    simp only [List.map_cons, Shape.checkSlots, hslot, List.contains_eq_mem, hfirst, decide_false,
      bind, Except.bind]
    by_cases hnull : presence = .nullable ∧ Shape.isNull (Draft.ofJson m.2) = true
    · simpa [hnull, ← eq_null_of_isNull hnull.2] using hnext
    · simpa [hnull, hsuits.check hnull] using hnext

theorem Fills.shaped {slots : List Slot} {members : List (String × Json)}
    (h : Fills room slots members) (hnames : (slots.map Prod.fst).Nodup) :
    Shape.check (room + 1) (.record slots) (Draft.ofJson (.obj members)) = .ok (.obj members) := by
  have hfound := checkSlots_map (h.lookup_slot hnames) (hnames.sublist h.names_sublist) [] []
    (by simp)
  have harranged := h.arrange hnames members fun _ _ => rfl
  simp only [List.reverse_nil, List.nil_append] at hfound
  simp only [Draft.ofJson, Reader.ofMembers_eq, List.reverse_nil, List.nil_append, Shape.check,
    hfound, bind, Except.bind, Shape.finishRecord, harranged, if_true, Except.map]

/-- A record that is written as such members is kept if it is taken from them again. -/
theorem Fills.keeps {a : α} {slots : List Slot} {members : List (String × Json)}
    (h : Fills room slots members) (hshape : c.shape = .record slots)
    (hencode : c.encode a = .obj members) (hnames : (slots.map Prod.fst).Nodup)
    (hdecode : c.decode (.obj members) = some a) : c.Keeps (room + 1) a where
  plain := by
    rw [hencode]
    exact h.plain
  shaped := by
    rw [hencode, hshape]
    exact h.shaped hnames
  decoded := by
    rw [hencode]
    exact hdecode

end Codec

end PropertyBoard
