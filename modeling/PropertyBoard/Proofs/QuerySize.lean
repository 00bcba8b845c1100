import Mathlib.Algebra.Order.Ring.Nat
import PropertyBoard.Proofs.Json.Size
import PropertyBoard.Proofs.Json.Texts
import PropertyBoard.Proofs.Objects
import PropertyBoard.Proofs.Template
import PropertyBoard.Service.Views

/-!
# PropertyBoard.Proofs.QuerySize

How many values the statement of a query carries, by how long the JSON text of the query is.

A query is stored if its text is short enough, and run if its statement carries few enough values.
These are two limits for one query. A text in a clause is one value, and no less than three octets
(two quotes and a comma), and what a clause carries besides is paid for by the field that it names.
Only the field without a name is too short for this, and a query can exclude it once.

* `Query.valueCount`: the values of a query. `Objects.length_params_select`: those of its statement.
* `Query.valueCount_le_size`: there are at most a third as many as the text has octets.
* `Views.values_of_stored`: so a short text makes no statement too large, and no text that is stored
  makes one with more than 87375 values.
* `Views.noneEmpty`: a text can be one octet too long for this, and its statement too large.
-/

namespace PropertyBoard

namespace Query

open Json

/-- A wanted field is a value, and so is each text of which it shall hold one. -/
def wantedCount (e : String × List String) : Nat :=
  e.2.length + 1

/-- A field that shall hold none of some texts is named twice: it is there, and holds none. -/
def unwantedCount (e : String × List String) : Nat :=
  if e.2.isEmpty then 1 else e.2.length + 2

/-- The values that the conditions of a query carry. -/
def valueCount (q : Query) : Nat :=
  (q.includes.entries.map wantedCount).sum + (q.excludes.entries.map unwantedCount).sum +
    q.channelScope.toList.length + q.teamScope.toList.length

/-! ## Values by octets -/

theorem unwantedCount_le (e : String × List String) : unwantedCount e ≤ e.2.length + 2 := by
  unfold unwantedCount
  split <;> omega

/-- The members of a map of texts. -/
def members (es : List (String × List String)) : List (String × Json) :=
  es.map fun e => (e.1, Codec.texts.encode e.2)

theorem size_dict_cons (e : String × List String) (es : List (String × List String)) :
    String.utf8Len (render (.obj (members (e :: es)))) =
      String.utf8Len (renderMembers (members (e :: es))) + 1 :=
  size_obj_cons _ _

theorem size_members_entry (e : String × List String) (es : List (String × List String)) :
    3 * e.2.length + String.utf8Len (quote e.1) + String.utf8Len (renderMembers (members es)) + 3 ≤
      String.utf8Len (renderMembers (members (e :: es))) := by
  have htexts : 3 * e.2.length + 1 ≤ String.utf8Len (render (Codec.texts.encode e.2)) :=
    size_texts e.2
  have hcons : String.utf8Len (renderMembers (members (e :: es))) = _ := size_members_cons _ _ _
  rw [hcons, ← members]
  omega

theorem wanted_le_members (es : List (String × List String)) :
    3 * (es.map wantedCount).sum + es.length ≤
      String.utf8Len (renderMembers (members es)) := by
  induction es with
  | nil => exact Nat.zero_le _
  | cons e es ih =>
    have hentry := size_members_entry e es
    have hquote := size_quote e.1
    rw [List.map_cons, List.sum_cons, List.length_cons, wantedCount]
    omega

theorem unwanted_le_members {es : List (String × List String)} (h : ∀ e ∈ es, e.1 ≠ "") :
    3 * (es.map unwantedCount).sum ≤ String.utf8Len (renderMembers (members es)) := by
  induction es with
  | nil => exact Nat.zero_le _
  | cons e es ih =>
    rw [List.forall_mem_cons] at h
    have hrest := ih h.2
    have hentry := size_members_entry e es
    have hquote := lt_size_quote h.1
    have hcount := unwantedCount_le e
    rw [List.map_cons, List.sum_cons]
    omega

theorem wanted_le_size (d : Dict (List String)) :
    3 * (d.entries.map wantedCount).sum + 2 ≤
      String.utf8Len (render (Codec.textLists.encode d)) := by
  have hmembers := wanted_le_members d.entries
  change _ ≤ String.utf8Len (render (.obj (members d.entries)))
  cases hentries : d.entries with
  | nil => decide
  | cons e es =>
    rw [hentries, List.length_cons] at hmembers
    rw [size_dict_cons]
    omega

/-- In ascending order only the first key can be empty. -/
theorem unwanted_le_size (d : Dict (List String)) :
    3 * (d.entries.map unwantedCount).sum ≤
      String.utf8Len (render (Codec.textLists.encode d)) := by
  have hascending := d.ascending
  change _ ≤ String.utf8Len (render (.obj (members d.entries)))
  cases hentries : d.entries with
  | nil => exact Nat.zero_le _
  | cons e es =>
    rw [hentries, List.pairwise_cons] at hascending
    have hnamed : ∀ e' ∈ es, e'.1 ≠ "" := by
      intro e' he' hempty
      have hlt := hascending.1 e' he'
      rw [hempty] at hlt
      exact Store.not_lt_empty _ hlt
    have hrest := unwanted_le_members hnamed
    have hentry := size_members_entry e es
    have hquote := size_quote e.1
    have hcount := unwantedCount_le e
    rw [size_dict_cons, List.map_cons, List.sum_cons]
    omega

theorem scope_le_members (name : String) (o : Option String) :
    3 * (o.bind Text.nonBlank?).toList.length ≤
      String.utf8Len (renderMembers (Codec.text.encodeOptional name o)) := by
  cases o with
  | none => exact Nat.zero_le _
  | some s =>
    have hone : (Text.nonBlank? s).toList.length ≤ 1 := by
      cases Text.nonBlank? s <;> simp
    have hquote := size_quote name
    rw [Codec.encodeOptional, size_members_cons, Option.bind_some]
    omega

theorem size_encode (q : Query) :
    (codec.encode q).text.utf8ByteSize =
      String.utf8Len (render (Codec.textLists.encode q.includes)) +
        String.utf8Len (render (Codec.textLists.encode q.excludes)) +
        String.utf8Len (renderMembers (Codec.text.encodeOptional "channel_id" q.channelId)) +
        String.utf8Len (renderMembers (Codec.text.encodeOptional "team_id" q.teamId)) + 25 := by
  have hincludes : String.utf8Len (quote "includes") = 10 := by decide
  have hexcludes : String.utf8Len (quote "excludes") = 10 := by decide
  rw [text_eq, String.utf8ByteSize_ofList, codec]
  simp only [List.cons_append, List.nil_append]
  rw [size_obj_cons, size_members_cons, size_members_cons, size_members_append, hincludes,
    hexcludes]
  omega

/-- A map with one key. -/
theorem size_single (k : String) (ts : List String) :
    String.utf8Len (render (Codec.textLists.encode { entries := [(k, ts)] })) =
      String.utf8Len (quote k) + String.utf8Len (render (Codec.texts.encode ts)) + 3 := by
  change String.utf8Len (render (.obj (members [(k, ts)]))) = _
  rw [size_dict_cons, members, List.map_singleton, size_members_cons, renderMembers,
    String.utf8Len_nil]

/-- The text of a query has three octets for each value, and 27 more. -/
theorem valueCount_le_size (q : Query) :
    3 * q.valueCount + 27 ≤ (codec.encode q).text.utf8ByteSize := by
  have hincludes := wanted_le_size q.includes
  have hexcludes := unwanted_le_size q.excludes
  have hchannel := scope_le_members "channel_id" q.channelId
  have hteam := scope_le_members "team_id" q.teamId
  rw [size_encode, valueCount, channelScope, teamScope]
  omega

end Query

namespace Statement
namespace Objects

open Sql

/-- A clause carries its field and its texts. -/
theorem length_params_wanted (fieldId : String) (texts : List String) :
    (Clause.wanted fieldId texts).fragment.params.length = texts.length + 1 := by
  rw [Clause.params_wanted, List.length_cons, List.length_map]

/-- An unwanted field carries the values of a wanted one, and its name once more if it is there. -/
theorem length_params_unwanted (fieldId : String) (texts : List String) :
    (Clause.unwanted fieldId texts).fragment.params.length =
      Query.unwantedCount (fieldId, texts) := by
  rw [Clause.params_unwanted]
  cases texts with
  | nil => rfl
  | cons t rest => simp [Query.unwantedCount]

theorem length_params_conditions (cs : List Clause) :
    ((cs.map Clause.condition).flatMap fun c => c.fragment.params).length =
      (cs.map fun c => c.fragment.params.length).sum := by
  rw [List.length_flatMap, List.map_map]
  rfl

theorem length_params_clauses (q : Query) :
    ((clauses q).map fun c => c.fragment.params.length).sum =
      (q.includes.entries.map Query.wantedCount).sum +
        (q.excludes.entries.map Query.unwantedCount).sum := by
  rw [clauses, List.map_append, List.sum_append, List.map_map, List.map_map]
  congr 2
  · refine List.map_congr_left fun e _ => ?_
    exact length_params_wanted e.1 e.2
  · refine List.map_congr_left fun e _ => ?_
    exact length_params_unwanted e.1 e.2

/-- A comparison carries one value, if there is something to compare with. -/
theorem length_params_equals {α ρ : Type} (column : Column ρ) (value : α → Param) (o : Option α) :
    ((o.toList.map fun a => Condition.equals column (value a)).flatMap
      fun c => c.fragment.params).length = o.toList.length := by
  cases o <;> simp [Condition.fragment]

/-- Besides the values of the query, the statement carries one for the type and two for the page. -/
theorem length_params_select (q : Query) (type : Option ObjectType) (page : Page) :
    (select q type page).fragment.params.length = q.valueCount + type.toList.length + 2 := by
  have hconditions : (select q type page).conditions =
      (clauses q).map Clause.condition ++ scopeConditions q ++ typeConditions type := rfl
  have hwindow : (select q type page).window = some page.window := rfl
  rw [Select.params_fragment, hconditions, hwindow, List.flatMap_append, List.flatMap_append,
    scopeConditions, List.flatMap_append, typeConditions]
  simp only [List.length_append, length_params_equals, length_params_conditions,
    length_params_clauses, Query.valueCount, List.length_cons, List.length_nil]
  omega

end Objects
end Statement

namespace Views

/-- A query that is stored has a statement for each type and page. How many values it carries is told
by the query, and they are at most a third as many as the stored text has octets, so at most 87375.
A text of 98318 octets or less makes no statement with too many of them; a statement that has too
many is never run. -/
theorem values_of_stored {q : Query} {id text : String} (hcriteria : q.hasCriteria = true)
    (hstored : encodeQuery id q = .ok text) (type : Option ObjectType) (page : Page) :
    ∃ s, Statement.Objects.compile q type page = .ok s ∧
      s.fragment.params.length = q.valueCount + type.toList.length + 2 ∧
      3 * s.fragment.params.length + 18 ≤ text.utf8ByteSize ∧
      s.fragment.params.length ≤ 87375 ∧
      (text.utf8ByteSize ≤ 98318 → s.fragment.params.length ≤ Sql.maxParams) ∧
      (Sql.maxParams < s.fragment.params.length → ∃ e, ∀ rows, s.on rows = .error e) := by
  obtain ⟨hfits, rfl⟩ := StoredJson.encode_eq_ok.1 hstored
  have hmax : StoredJson.maxSize = 262144 := rfl
  have hparams : Sql.maxParams = 32766 := rfl
  have hlength := Statement.Objects.length_params_select q type page
  have hsize := Query.valueCount_le_size q
  have htype : type.toList.length ≤ 1 := by
    cases type <;> simp
  refine ⟨_, if_pos hcriteria, hlength, by omega, by omega, fun hshort => by omega, ?_⟩
  intro hmany
  obtain ⟨e, he⟩ := Sql.Select.limitFault_of_params hmany
  refine ⟨e, fun rows => ?_⟩
  rw [Sql.Select.on, he]

/-- A query for one of two texts, without a field, in a channel. -/
def taggedOpen : Query where
  includes := { entries := [("tag", ["a", "b"])] }
  excludes := { entries := [("done", [])] }
  channelId := some "c"

theorem taggedOpen_values :
    ∃ text, encodeQuery "v" taggedOpen = .ok text ∧ text.utf8ByteSize = 70 ∧
      ∃ s, Statement.Objects.compile taggedOpen (some .post) ⟨0, 10⟩ = .ok s ∧
        s.fragment.params.length = 8 ∧ s.fragment.params.length ≤ Sql.maxParams := by
  have hsize : (Query.codec.encode taggedOpen).text.utf8ByteSize = 70 := by
    decide +kernel
  have hstored : encodeQuery "v" taggedOpen = .ok (Query.codec.encode taggedOpen).text :=
    StoredJson.encode_eq_ok.2 ⟨by rw [hsize]; decide, rfl⟩
  obtain ⟨s, hs, hlength, -, -, hfits, -⟩ := values_of_stored rfl hstored (some .post) ⟨0, 10⟩
  have hcount : taggedOpen.valueCount = 5 := by decide +kernel
  rw [hcount] at hlength
  exact ⟨_, hstored, hsize, s, hs, hlength, hfits (by rw [hsize]; decide)⟩

/-- A query that wants none of so many empty texts in the field without a name. -/
def noneEmpty (n : Nat) : Query where
  excludes := { entries := [("", List.replicate n "")] }

open Json in
/-- No other text is as short for as many values. -/
theorem size_noneEmpty (n : Nat) :
    (Query.codec.encode (noneEmpty (n + 1))).text.utf8ByteSize = 3 * (n + 1) + 33 := by
  have hnothing : String.utf8Len (render (Codec.textLists.encode Dict.empty)) = 2 := by decide
  have hquote : String.utf8Len (quote "") = 2 := by decide
  have htexts : String.utf8Len (render (Codec.texts.encode (List.replicate (n + 1) ""))) =
      3 * (n + 1) + 1 :=
    size_empty_texts n
  rw [Query.size_encode, noneEmpty, Query.size_single, hquote, htexts]
  change String.utf8Len (render (Codec.textLists.encode Dict.empty)) + _ + 0 + 0 + 25 = _
  rw [hnothing]
  omega

theorem valueCount_noneEmpty (n : Nat) : (noneEmpty (n + 1)).valueCount = n + 3 := by
  simp [Query.valueCount, noneEmpty, Query.unwantedCount, Dict.empty, Query.channelScope,
    Query.teamScope]

/-- A text of 98319 octets is stored, and its statement has one value too many. -/
theorem noneEmpty_over_limit :
    (noneEmpty 32762).checkConstrained = .ok () ∧ (noneEmpty 32762).hasCriteria = true ∧
      ∃ text, encodeQuery "v" (noneEmpty 32762) = .ok text ∧ text.utf8ByteSize = 98319 ∧
        ∀ page, ∃ s, Statement.Objects.compile (noneEmpty 32762) (some .post) page = .ok s ∧
          s.fragment.params.length = Sql.maxParams + 1 := by
  have hsize : (Query.codec.encode (noneEmpty 32762)).text.utf8ByteSize = 98319 :=
    size_noneEmpty 32761
  refine ⟨rfl, rfl, _, StoredJson.encode_eq_ok.2 ⟨?_, rfl⟩, hsize, fun page => ⟨_, rfl, ?_⟩⟩
  · rw [hsize]
    decide
  · rw [Statement.Objects.length_params_select, valueCount_noneEmpty 32761]
    rfl

end Views
end PropertyBoard
