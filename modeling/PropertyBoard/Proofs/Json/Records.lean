import PropertyBoard.Proofs.Json.Texts

/-!
# PropertyBoard.Proofs.Json.Records

Every record that is written as JSON is read back.

* `Codec.required_cons`, `Codec.defaulted_cons`, `Codec.nullable_cons_of_ne`: a member is looked for
  one member after the other.
* `Post.keeps`, `Channel.keeps`, `Field.keeps`, `Query.keeps`, `Layout.keeps`, `View.keeps`,
  `Member.keeps`, `ViewPatch.keeps`: the records, each with the nesting it needs.
* `Codec.RoundTrips`: what a codec writes is read back, and written the same again.
* `records_round_trip`: so do all of them, and lists of texts.
-/

namespace PropertyBoard

variable {name k : String} {j : Json} {ms : List (String × Json)}

@[simp] theorem Json.get?_cons : (Json.obj ((k, j) :: ms)).get? name =
    if name = k then some j else (Json.obj ms).get? name := by
  by_cases h : name = k
  · simp [Json.get?, h]
  · simp only [Json.get?, Codec.lookup_cons_of_ne h, if_neg h]

namespace Codec

variable {α : Type} {c : Codec α}

@[simp] theorem required_cons : c.required (.obj ((k, j) :: ms)) name =
    if name = k then c.decode j else c.required (.obj ms) name := by
  by_cases h : name = k <;> simp [required, h]

@[simp] theorem defaulted_cons {a : α} : c.defaulted (.obj ((k, j) :: ms)) name a =
    if name = k then c.decode j else c.defaulted (.obj ms) name a := by
  by_cases h : name = k <;> simp [defaulted, h]

@[simp] theorem nullable_nil : c.nullable (.obj []) name = some none := rfl

@[simp] theorem nullable_cons_of_ne (h : name ≠ k) :
    c.nullable (.obj ((k, j) :: ms)) name = c.nullable (.obj ms) name := by
  simp [nullable, h]

/-- A member that is there and one that is `null` are told apart. -/
theorem nullable_encodeNullable {a? : Option α} (hc : ∀ a, c.decode (c.encode a) = some a)
    (hnull : ∀ a, c.encode a ≠ .null) :
    c.nullable (.obj ((name, c.encodeNullable a?) :: ms)) name = some a? := by
  cases a? with
  | none => simp [nullable, encodeNullable]
  | some a => simp [nullable, encodeNullable, hc, hnull]

@[simp] theorem decode_text (s : String) : text.decode (text.encode s) = some s := rfl

@[simp] theorem decode_int64 (n : Int64) : int64.decode (int64.encode n) = some n := by
  simp [int64, Json.int?]

@[simp] theorem nullable_text (s : String) :
    text.nullable (.obj ((name, text.encode s) :: ms)) name = some (some s) := by
  have hs : text.encodeNullable (some s) = text.encode s := rfl
  rw [← hs]
  exact nullable_encodeNullable decode_text fun _ => Json.noConfusion

end Codec

variable {room : Nat}

/-! ## What the platform keeps -/

theorem ChannelType.keeps (t : ChannelType) : (Named.codec : Codec ChannelType).Keeps room t :=
  Codec.keeps_named (by cases t <;> decide) (ChannelType.ofName?_name t)

theorem Post.keeps (p : Post) : Post.codec.Keeps (room + 1) p := by
  refine Codec.Fills.keeps (.member (Codec.keeps_text p.id) (.member (Codec.keeps_text p.channelId)
    (.member (Codec.keeps_text p.userId) (.member (Codec.keeps_text p.message)
      (.member (Codec.keeps_text p.type) (.member (Codec.keeps_int64 p.createdAt) .nil))))))
    rfl rfl (by decide) ?_
  simp [Post.codec]

theorem Channel.keeps (c : Channel) : Channel.codec.Keeps (room + 1) c := by
  have htype : (Named.codec : Codec ChannelType).Keeps room c.type := c.type.keeps
  refine Codec.Fills.keeps (.member (Codec.keeps_text c.id) (.member (Codec.keeps_text c.teamId)
    (.member (Codec.keeps_text c.name) (.member htype .nil)))) rfl rfl (by decide) ?_
  simp [Channel.codec, htype.decoded]

/-! ## Fields -/

theorem FieldType.keeps (t : FieldType) : (Named.codec : Codec FieldType).Keeps room t :=
  Codec.keeps_named (by cases t <;> decide) (FieldType.ofName?_name t)

theorem Field.keeps (f : Field) : Field.codec.Keeps (room + 2) f := by
  have htype : (Named.codec : Codec FieldType).Keeps (room + 1) f.type := f.type.keeps
  have hoptions : Codec.texts.Keeps (room + 1) f.options := Codec.keeps_texts f.options
  refine Codec.Fills.keeps (.member (Codec.keeps_text f.id) (.member (Codec.keeps_text f.teamId)
    (.member (Codec.keeps_text f.name) (.member htype (.member hoptions
      (.member (Codec.keeps_int64 f.updatedAt) (.member (Codec.keeps_text f.updatedBy) .nil)))))))
    rfl rfl (by decide) ?_
  simp [Field.codec, htype.decoded, hoptions.decoded]

/-! ## Views -/

theorem Query.keeps (q : Query) : Query.codec.Keeps (room + 3) q := by
  have hincludes := Codec.keeps_textLists room q.includes
  have hexcludes := Codec.keeps_textLists room q.excludes
  refine Codec.Fills.keeps (.member hincludes (.member hexcludes
    (.optional q.channelId Codec.keeps_text (.optional q.teamId Codec.keeps_text .nil))))
    rfl ?_ (by decide) ?_
  · simp [Query.codec]
  · obtain ⟨includes, excludes, channelId, teamId⟩ := q
    cases channelId <;> cases teamId <;>
      simp [Query.codec, Codec.encodeOptional, hincludes.decoded, hexcludes.decoded]

theorem SortKey.keeps (k : SortKey) : SortKey.codec.Keeps (room + 1) k := by
  have hdirection : (Named.codec : Codec SortDirection).Keeps room k.direction := by
    cases k.direction <;> exact Codec.keeps_named (by decide) (by decide)
  refine Codec.Fills.keeps (.member (Codec.keeps_text k.fieldId) (.member hdirection .nil))
    rfl rfl (by decide) ?_
  simp [SortKey.codec, hdirection.decoded]

theorem Layout.keeps (l : Layout) : Layout.codec.Keeps (room + 3) l := by
  have horder : (Codec.list SortKey.codec).Keeps (room + 2) l.order :=
    Codec.keeps_list fun k _ => k.keeps
  have hhidden := Codec.keeps_textLists room l.hidden
  have hroot : (Named.codec : Codec ObjectType).Keeps (room + 2) l.root :=
    Codec.keeps_named (by cases l.root <;> decide) (ObjectType.ofName?_name l.root)
  refine Codec.Fills.keeps (.member horder (.optional l.groupBy Codec.keeps_text
    (.member hhidden (.member hroot .nil)))) rfl ?_ (by decide) ?_
  · simp [Layout.codec]
  · obtain ⟨order, groupBy, hidden, root⟩ := l
    cases groupBy <;>
      simp [Layout.codec, Codec.encodeOptional, horder.decoded, hhidden.decoded, hroot.decoded]

theorem View.keeps (v : View) : View.codec.Keeps (room + 4) v := by
  have htype : (Named.codec : Codec ViewType).Keeps (room + 3) v.type :=
    Codec.keeps_named (by cases v.type <;> decide) (ViewType.ofName?_name v.type)
  have hquery : Query.codec.Keeps (room + 3) v.query := v.query.keeps
  have hlayout : Layout.codec.Keeps (room + 3) v.layout := v.layout.keeps
  refine Codec.Fills.keeps (.member (Codec.keeps_text v.id) (.member (Codec.keeps_text v.title)
    (.member htype (.member (Codec.keeps_int64 v.createdAt) (.member hquery
      (.member hlayout .nil)))))) rfl rfl (by decide) ?_
  simp [View.codec, htype.decoded, hquery.decoded, hlayout.decoded]

theorem Member.keeps (m : Member) : Member.codec.Keeps (room + 1) m := by
  refine Codec.Fills.keeps (.member (Codec.keeps_text m.viewId) (.member (Codec.keeps_text m.userId)
    .nil)) rfl rfl (by decide) ?_
  simp [Member.codec]

theorem ViewPatch.keeps (p : ViewPatch) : ViewPatch.codec.Keeps (room + 4) p := by
  have hquery : ∀ q, Query.codec.Keeps (room + 3) q := Query.keeps
  have hlayout : ∀ l, Layout.codec.Keeps (room + 3) l := Layout.keeps
  refine Codec.Fills.keeps (.nullable p.title Codec.keeps_text (.nullable p.query hquery
    (.nullable p.layout hlayout .nil))) rfl rfl (by decide) ?_
  -- No part is written as `null`, so a part that is `null` is one that is left as it is.
  simp [ViewPatch.codec, Codec.nullable_encodeNullable Codec.decode_text fun _ => Json.noConfusion,
    Codec.nullable_encodeNullable (fun q => (hquery q).decoded) fun _ => Json.noConfusion,
    Codec.nullable_encodeNullable (fun l => (hlayout l).decoded) fun _ => Json.noConfusion]

/-! ## There and back -/

/-- What is written is read back, from a message and from a column, and is written the same again. -/
structure Codec.RoundTrips {α : Type} (c : Codec α) : Prop where
  read : ∀ a, c.read (c.print a) = .ok a
  stored : ∀ a, Store.stored? c (c.print a) = some a
  again : ∀ a, (c.read (c.print a)).map c.print = .ok (c.print a)

theorem Codec.roundTrips_of_keeps {α : Type} {c : Codec α} (h : ∀ a, c.Keeps maxDepth a) :
    c.RoundTrips where
  read a := (h a).read
  stored a := Store.stored?_of_keeps (h a)
  again a := by
    rw [print, (h a).read]
    rfl

theorem records_round_trip :
    Query.codec.RoundTrips ∧ Layout.codec.RoundTrips ∧ View.codec.RoundTrips ∧
      Field.codec.RoundTrips ∧ Post.codec.RoundTrips ∧ Channel.codec.RoundTrips ∧
      Member.codec.RoundTrips ∧ ViewPatch.codec.RoundTrips ∧ Codec.texts.RoundTrips :=
  ⟨Codec.roundTrips_of_keeps Query.keeps, Codec.roundTrips_of_keeps Layout.keeps,
    Codec.roundTrips_of_keeps View.keeps, Codec.roundTrips_of_keeps Field.keeps,
    Codec.roundTrips_of_keeps Post.keeps, Codec.roundTrips_of_keeps Channel.keeps,
    Codec.roundTrips_of_keeps Member.keeps, Codec.roundTrips_of_keeps ViewPatch.keeps,
    Codec.roundTrips_of_keeps Codec.keeps_texts⟩

end PropertyBoard
