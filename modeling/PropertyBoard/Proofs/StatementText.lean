import PropertyBoard.Proofs.Template
import PropertyBoard.Statement.Platform
import PropertyBoard.Statement.Properties
import PropertyBoard.Statement.Views

/-!
# PropertyBoard.Proofs.StatementText

No text that a caller hands over is ever part of a statement.

* `Statement.Any`: all statements of the board, each with all that it is made from.
* `Any.SameShape`: two of them differ in data only. What else tells them apart is how many values
  there are, and which parts are asked for.
* `Any.form_eq`, `Any.plain`: data does not show in the form of a statement, and no question mark
  stands in its words. Both are put together from tables, columns and conditions.
* `Any.text_without_data`: so the text is told by the shape, and its question marks stand for the
  values that are bound, one for each and in their order. What is written by hand gives its part of
  the statement.
-/

namespace PropertyBoard
namespace Statement

open Sql Store

/-- A statement, or the clause of one, with what it is made from. -/
inductive Any where
  | insertField (r : FieldRow)
  | fieldById (id : String)
  | listFields (f : FieldFilter)
  | updateField (r : FieldRow)
  | deleteField (id : String)
  | insertProperty (r : PropertyRow)
  | propertyById (id : String)
  | propertiesOfObject (objectId : String)
  | valuesOfField (fieldId : String)
  | countProperties (objectId fieldId : String)
  | updateValue (id value : String)
  | restamp (objectId : String) (scope : Scope)
  | deleteProperty (id : String)
  | deletePropertiesOfField (fieldId : String)
  | insertView (r : ViewRow)
  | viewById (id : String)
  | updateView (id : String) (p : Views.Parts)
  | viewsVisibleTo (userId : String)
  | insertMember (m : Member)
  | countMembers (viewId userId : String)
  | membersOfView (viewId : String)
  | postById (id : String)
  | postsByIds (ids : List String)
  | timeline (channelId : String) (page : Page)
  | channelById (id : String)
  | roleOf (channelId userId : String)
  | clause (c : Objects.Clause)
  | objects (q : Query) (type : Option ObjectType) (page : Page)

namespace Any

/-- `none` if there is nothing to replace, or nothing is asked of any field. -/
def fragment? : Any → Option Fragment
  | insertField r => some (Fields.insert r).fragment
  | fieldById id => some (Fields.byId id).fragment
  | listFields f => some (Fields.list f).fragment
  | updateField r => some (Fields.update r).fragment
  | deleteField id => some (Fields.delete id).fragment
  | insertProperty r => some (Properties.insert r).fragment
  | propertyById id => some (Properties.byId id).fragment
  | propertiesOfObject objectId => some (Properties.ofObject objectId).fragment
  | valuesOfField fieldId => some (Properties.valuesOfField fieldId).fragment
  | countProperties objectId fieldId => some (Properties.countOf objectId fieldId).fragment
  | updateValue id value => some (Properties.updateValue id value).fragment
  | restamp objectId scope => some (Properties.restamp objectId scope).fragment
  | deleteProperty id => some (Properties.delete id).fragment
  | deletePropertiesOfField fieldId => some (Properties.deleteOfField fieldId).fragment
  | insertView r => some (Views.insert r).fragment
  | viewById id => some (Views.byId id).fragment
  | updateView id p => (Views.update? id p).map Update.fragment
  | viewsVisibleTo userId => some (Views.visibleTo userId).fragment
  | insertMember m => some (Members.insert m).fragment
  | countMembers viewId userId => some (Members.countOf viewId userId).fragment
  | membersOfView viewId => some (Members.ofView viewId).fragment
  | postById id => some (Posts.byId id).fragment
  | postsByIds ids => some (Posts.byIds ids).fragment
  | timeline channelId page => some (Posts.timeline channelId page).fragment
  | channelById id => some (Channels.byId id).fragment
  | roleOf channelId userId => some (Channels.roleOf channelId userId).fragment
  | clause c => some c.fragment
  | objects q type page => (Objects.compile q type page).toOption.map Select.fragment

/-- How many texts are asked for in each field of a query, by the order of the fields. -/
def sizes (d : Dict (List String)) : List Nat :=
  d.entries.map fun e => e.2.length

/-- Two statements of one kind that differ in data only. -/
inductive SameShape : Any → Any → Prop
  | insertField (r r') : SameShape (insertField r) (insertField r')
  | fieldById (id id') : SameShape (fieldById id) (fieldById id')
  | listFields (f f' : FieldFilter)
      (team : (Text.nonBlank? f.teamId).isSome = (Text.nonBlank? f'.teamId).isSome)
      (term : (Text.nonBlank? f.term).isSome = (Text.nonBlank? f'.term).isSome)
      (ownOnly : f.ownOnly = f'.ownOnly) : SameShape (listFields f) (listFields f')
  | updateField (r r') : SameShape (updateField r) (updateField r')
  | deleteField (id id') : SameShape (deleteField id) (deleteField id')
  | insertProperty (r r') : SameShape (insertProperty r) (insertProperty r')
  | propertyById (id id') : SameShape (propertyById id) (propertyById id')
  | propertiesOfObject (id id') : SameShape (propertiesOfObject id) (propertiesOfObject id')
  | valuesOfField (id id') : SameShape (valuesOfField id) (valuesOfField id')
  | countProperties (o f o' f') : SameShape (countProperties o f) (countProperties o' f')
  | updateValue (id v id' v') : SameShape (updateValue id v) (updateValue id' v')
  | restamp (o scope o' scope') : SameShape (restamp o scope) (restamp o' scope')
  | deleteProperty (id id') : SameShape (deleteProperty id) (deleteProperty id')
  | deletePropertiesOfField (id id') :
      SameShape (deletePropertiesOfField id) (deletePropertiesOfField id')
  | insertView (r r') : SameShape (insertView r) (insertView r')
  | viewById (id id') : SameShape (viewById id) (viewById id')
  | updateView (id id') (p p' : Views.Parts) (title : p.title.isSome = p'.title.isSome)
      (query : p.query.isSome = p'.query.isSome) (layout : p.layout.isSome = p'.layout.isSome) :
      SameShape (updateView id p) (updateView id' p')
  | viewsVisibleTo (id id') : SameShape (viewsVisibleTo id) (viewsVisibleTo id')
  | insertMember (m m') : SameShape (insertMember m) (insertMember m')
  | countMembers (v u v' u') : SameShape (countMembers v u) (countMembers v' u')
  | membersOfView (id id') : SameShape (membersOfView id) (membersOfView id')
  | postById (id id') : SameShape (postById id) (postById id')
  | postsByIds (ids ids' : List String) (length : ids.length = ids'.length) :
      SameShape (postsByIds ids) (postsByIds ids')
  | timeline (id page id' page') : SameShape (timeline id page) (timeline id' page')
  | channelById (id id') : SameShape (channelById id) (channelById id')
  | roleOf (c u c' u') : SameShape (roleOf c u) (roleOf c' u')
  | wanted (f f') (texts texts' : List String) (length : texts.length = texts'.length) :
      SameShape (clause (.wanted f texts)) (clause (.wanted f' texts'))
  | unwanted (f f') (texts texts' : List String) (length : texts.length = texts'.length) :
      SameShape (clause (.unwanted f texts)) (clause (.unwanted f' texts'))
  | objects (q q' : Query) (type type' : Option ObjectType) (page page')
      (includes : sizes q.includes = sizes q'.includes)
      (excludes : sizes q.excludes = sizes q'.excludes)
      (channel : q.channelScope.isSome = q'.channelScope.isSome)
      (team : q.teamScope.isSome = q'.teamScope.isSome) (ofType : type.isSome = type'.isSome) :
      SameShape (objects q type page) (objects q' type' page')

end Any

/-! ## Rows by one column -/

theorem plain_oneColumn {ρ : Type} {column : Column ρ} (h : column.Plain) (value : Param) :
    ∀ c ∈ [Condition.equals column value], c.fragment.Plain :=
  List.forall_mem_singleton.2 (Comparison.plain_equals h value)

/-- The statement for the rows of a table that have a value in one column. -/
theorem plain_byColumn {ρ : Type} {columns : List (Column ρ)} (hcolumns : ∀ c ∈ columns, c.Plain)
    {table : String} (htable : Unmarked table) {column : Column ρ} (hcolumn : column.Plain)
    (value : Param) :
    Fragment.Plain (Select.fragment
      { columns, source := quoted table, conditions := [.equals column value] }) :=
  Select.plain_fragment hcolumns (unmarked_quoted.2 htable) (plain_oneColumn hcolumn value)
    (fun _ ho => nomatch ho)

/-! ## Clauses and conditions -/

namespace Objects

open Fragment

namespace Clause

theorem form_oneOf_eq {texts texts' : List String} (h : texts.length = texts'.length) :
    (oneOf texts).fragment.form = (oneOf texts').fragment.form := by
  match texts, texts' with
  | [], [] => rfl
  | [t], [t'] => rfl
  | t :: u :: rest, t' :: u' :: rest' => exact Comparison.form_isIn_eq (by simpa using h)

theorem shape_contains_eq {texts texts' : List String} (f f' : String)
    (h : texts.length = texts'.length) :
    (contains f texts).shape = (contains f' texts').shape := by
  simp only [contains, Lookup.shape, Lookup.among, List.map_append, List.map_cons,
    form_oneOf_eq h]
  rfl

theorem form_wanted_eq {texts texts' : List String} (f f' : String)
    (h : texts.length = texts'.length) :
    (wanted f texts).fragment.form = (wanted f' texts').fragment.form := by
  match texts, texts' with
  | [], [] => rfl
  | t :: rest, t' :: rest' => exact Handwritten.form_hasRow_eq (shape_contains_eq f f' h)

theorem form_unwanted_eq {texts texts' : List String} (f f' : String)
    (h : texts.length = texts'.length) :
    (unwanted f texts).fragment.form = (unwanted f' texts').fragment.form := by
  match texts, texts' with
  | [], [] => rfl
  | t :: rest, t' :: rest' =>
    exact Handwritten.form_both_eq rfl
      (Handwritten.form_not_eq (Handwritten.form_hasRow_eq (shape_contains_eq f f' h)))

theorem plain_hasKey (f : String) :
    ∀ c ∈ [Comparison.equals keyColumn (.text f)], c.fragment.Plain :=
  List.forall_mem_singleton.2 (Comparison.plain_equals (by decide) _)

theorem plain_present (f : String) : (present f).Plain :=
  Lookup.plain_among (unmarked_ofList (by decide)) (plain_hasKey f) Lookup.plain_here

theorem plain_oneOf (texts : List String) : (oneOf texts).fragment.Plain := by
  have hvalue : valueColumn.Plain := by decide
  match texts with
  | [] => exact Comparison.plain_isIn hvalue _
  | [t] => exact Comparison.plain_equals hvalue _
  | t :: u :: rest => exact Comparison.plain_isIn hvalue _

theorem plain_contains (f : String) (texts : List String) : (contains f texts).Plain :=
  Lookup.plain_among (unmarked_ofList (by decide)) (plain_hasKey f)
    (Lookup.plain_among (unmarked_ofList (by decide))
      (List.forall_mem_singleton.2 (plain_oneOf texts)) Lookup.plain_here)

theorem plain_fragment (c : Clause) : c.fragment.Plain := by
  cases c with
  | wanted f texts =>
    cases texts with
    | nil => exact Handwritten.plain_hasRow (plain_present f)
    | cons t rest => exact Handwritten.plain_hasRow (plain_contains f (t :: rest))
  | unwanted f texts =>
    cases texts with
    | nil => exact Handwritten.plain_not (Handwritten.plain_hasRow (plain_present f))
    | cons t rest =>
      exact Handwritten.plain_both (Handwritten.plain_hasRow (plain_present f))
        (Handwritten.plain_not (Handwritten.plain_hasRow (plain_contains f (t :: rest))))

end Clause

/-- What a query asks of its fields shows in the statement by the numbers of texts. -/
theorem shape_clauses_eq {q q' : Query} (hincludes : Any.sizes q.includes = Any.sizes q'.includes)
    (hexcludes : Any.sizes q.excludes = Any.sizes q'.excludes) :
    ((clauses q).map Clause.condition).map Condition.shape =
      ((clauses q').map Clause.condition).map Condition.shape := by
  simp only [clauses, List.map_append, List.map_map]
  congr 1
  · refine map_eq_of_map_eq (fun e e' hsize => ?_) hincludes
    exact congrArg (Prod.mk false) (Clause.form_wanted_eq e.1 e'.1 hsize)
  · refine map_eq_of_map_eq (fun e e' hsize => ?_) hexcludes
    exact congrArg (Prod.mk false) (Clause.form_unwanted_eq e.1 e'.1 hsize)

theorem shape_equals_eq {α ρ : Type} {o o' : Option α} (h : o.isSome = o'.isSome)
    (column : Column ρ) (text : α → String) :
    (o.toList.map fun a => Condition.equals column (.text (text a))).map Condition.shape =
      (o'.toList.map fun a => Condition.equals column (.text (text a))).map Condition.shape := by
  obtain ⟨rfl, rfl⟩ | ⟨a, a', rfl, rfl⟩ := both_or_neither h
  · rfl
  · rfl

theorem form_select_eq {q q' : Query} {type type' : Option ObjectType} (page page' : Page)
    (hincludes : Any.sizes q.includes = Any.sizes q'.includes)
    (hexcludes : Any.sizes q.excludes = Any.sizes q'.excludes)
    (hchannel : q.channelScope.isSome = q'.channelScope.isSome)
    (hteam : q.teamScope.isSome = q'.teamScope.isSome) (htype : type.isSome = type'.isSome) :
    (select q type page).fragment.form = (select q' type' page').fragment.form := by
  have hwindow : (select q type page).window.isSome = (select q' type' page').window.isSome := by
    simp only [select, Option.isSome_some]
  refine Select.form_fragment_eq rfl rfl ?_ rfl rfl hwindow
  have hclauses := shape_clauses_eq hincludes hexcludes
  have hchannels := shape_equals_eq hchannel (own ObjectRow.channelColumn) (fun id => id)
  have hteams := shape_equals_eq hteam (own ObjectRow.teamColumn) (fun id => id)
  have htypes := shape_equals_eq htype (own ObjectRow.typeColumn) ObjectType.name
  simp only [select, List.map_append, scopeConditions, typeConditions]
  rw [hclauses, hchannels, hteams, htypes]

theorem plain_own {c : Column ObjectRow} (h : c.Plain) : (own c).Plain :=
  h.within (by decide) id

theorem plain_select (q : Query) (type : Option ObjectType) (page : Page) :
    (select q type page).fragment.Plain := by
  have hid : (own ObjectRow.idColumn).Plain := plain_own (by decide)
  have hsource : Unmarked (quoted ObjectRow.view ++ " AS \"v\"") :=
    unmarked_append.2 ⟨unmarked_quoted.2 (unmarked_ofList (by decide)), by decide⟩
  refine Select.plain_fragment (List.forall_mem_singleton.2 hid) hsource ?_
    (List.forall_mem_singleton.2 hid)
  intro c hc
  simp only [select, clauses, scopeConditions, typeConditions, List.mem_append, List.mem_map] at hc
  rcases hc with (⟨c, _, rfl⟩ | ⟨id, _, rfl⟩ | ⟨id, _, rfl⟩) | ⟨t, _, rfl⟩
  · exact c.plain_fragment
  · exact Comparison.plain_equals (plain_own (by decide)) _
  · exact Comparison.plain_equals (plain_own (by decide)) _
  · exact Comparison.plain_equals (plain_own (by decide)) _

/-- A statement needs something that is asked of a field, which the numbers of texts show. -/
theorem hasCriteria_eq {q q' : Query} (hincludes : Any.sizes q.includes = Any.sizes q'.includes)
    (hexcludes : Any.sizes q.excludes = Any.sizes q'.excludes) :
    q.hasCriteria = q'.hasCriteria := by
  have hempty {d d' : Dict (List String)} (h : Any.sizes d = Any.sizes d') :
      d.isEmpty = d'.isEmpty := by
    have hsizes (d : Dict (List String)) : d.isEmpty = (Any.sizes d).isEmpty := by
      rw [Any.sizes, List.isEmpty_map, Dict.isEmpty]
    rw [hsizes, hsizes, h]
  rw [Query.hasCriteria, Query.hasCriteria, hempty hincludes, hempty hexcludes]

end Objects

/-! ## Statements of one shape -/

namespace Fields

open Fragment

theorem shape_teamConditions_eq {f f' : FieldFilter}
    (hteam : (Text.nonBlank? f.teamId).isSome = (Text.nonBlank? f'.teamId).isSome)
    (hown : f.ownOnly = f'.ownOnly) :
    (teamConditions f).map Condition.shape = (teamConditions f').map Condition.shape := by
  unfold teamConditions
  obtain ⟨h, h'⟩ | ⟨team, team', h, h'⟩ := both_or_neither hteam
  · rw [h, h']
  · rw [h, h', hown]
    cases f'.ownOnly with
    | true => rfl
    | false => rfl

theorem shape_nameCondition (pattern pattern' : String) :
    (nameCondition pattern).shape = (nameCondition pattern').shape := rfl

theorem shape_nameConditions_eq {f f' : FieldFilter}
    (hterm : (Text.nonBlank? f.term).isSome = (Text.nonBlank? f'.term).isSome) :
    (nameConditions f).map Condition.shape = (nameConditions f').map Condition.shape := by
  unfold nameConditions pattern?
  obtain ⟨h, h'⟩ | ⟨term, term', h, h'⟩ := both_or_neither hterm
  · rw [h, h']
  · simp only [h, h', Option.map_some, List.map_cons, List.map_nil]
    rw [shape_nameCondition (pattern term) (pattern term')]

theorem form_list_eq {f f' : FieldFilter}
    (hteam : (Text.nonBlank? f.teamId).isSome = (Text.nonBlank? f'.teamId).isSome)
    (hterm : (Text.nonBlank? f.term).isSome = (Text.nonBlank? f'.term).isSome)
    (hown : f.ownOnly = f'.ownOnly) : (list f).fragment.form = (list f').fragment.form := by
  have hwindow : (list f).window.isSome = (list f').window.isSome := by
    simp only [list, Option.isSome_some]
  refine Select.form_fragment_eq rfl rfl ?_ rfl rfl hwindow
  simp only [list, List.map_append]
  rw [shape_teamConditions_eq hteam hown, shape_nameConditions_eq hterm]

theorem unmarked_table : Unmarked FieldRow.table := by decide

theorem plain_columns : ∀ c ∈ FieldRow.columns, c.Plain := by decide

theorem plain_idColumn : FieldRow.idColumn.Plain :=
  plain_columns _ (by simp [FieldRow.columns])

theorem plain_insert (r : FieldRow) : (insert r).fragment.Plain :=
  Insert.plain_fragment unmarked_table plain_columns

theorem plain_byId (id : String) : (byId id).fragment.Plain :=
  plain_byColumn plain_columns unmarked_table plain_idColumn _

theorem plain_update (r : FieldRow) : (update r).fragment.Plain := by
  have hnames : ∀ name ∈ ["team_id", "name", "field_type", "field_values", "update_at", "update_by"],
      Unmarked name := by decide
  exact Update.plain_fragment unmarked_table hnames (plain_oneColumn plain_idColumn _)

theorem plain_delete (id : String) : (delete id).fragment.Plain :=
  Delete.plain_fragment unmarked_table (plain_oneColumn plain_idColumn _)

theorem plain_teamCondition (teamId : String) (ownOnly : Bool) :
    (teamCondition teamId ownOnly).fragment.Plain := by
  have hteam (value : Param) : (Condition.equals FieldRow.teamColumn value).fragment.Plain :=
    Comparison.plain_equals (plain_columns _ (by simp [FieldRow.columns])) value
  unfold teamCondition
  split
  · exact hteam _
  · exact Condition.plain_either (hteam _) (hteam _)

theorem plain_nameCondition (pattern : String) : (nameCondition pattern).fragment.Plain :=
  Handwritten.plain_like (plain_columns _ (by simp [FieldRow.columns])) pattern

theorem plain_list (f : FieldFilter) : (list f).fragment.Plain := by
  refine Select.plain_fragment plain_columns (unmarked_quoted.2 unmarked_table) ?_ ?_
  · intro c hc
    rcases List.mem_append.1 hc with hc | hc
    · unfold teamConditions at hc
      split at hc
      · obtain rfl := List.mem_singleton.1 hc
        exact plain_teamCondition _ _
      · cases hc
    · unfold nameConditions at hc
      split at hc
      · obtain rfl := List.mem_singleton.1 hc
        exact plain_nameCondition _
      · cases hc
  · intro o ho
    refine plain_columns _ ?_
    simp only [list, List.mem_cons, List.not_mem_nil, or_false] at ho
    rcases ho with rfl | rfl <;> simp [FieldRow.columns]

end Fields

namespace Properties

theorem unmarked_table : Unmarked PropertyRow.table := by decide

theorem plain_columns : ∀ c ∈ PropertyRow.columns, c.Plain := by decide

theorem plain_idColumn : PropertyRow.idColumn.Plain :=
  plain_columns _ (by simp [PropertyRow.columns])

theorem plain_objectColumn : PropertyRow.objectColumn.Plain :=
  plain_columns _ (by simp [PropertyRow.columns])

theorem plain_fieldColumn : PropertyRow.fieldColumn.Plain :=
  plain_columns _ (by simp [PropertyRow.columns])

theorem plain_own {c : Column PropertyRow} (h : c ∈ PropertyRow.columns) : (own c).Plain :=
  (plain_columns c h).within unmarked_table Prod.fst

theorem plain_ofField {c : Column FieldRow} (h : c ∈ FieldRow.columns) : (ofField c).Plain :=
  (Fields.plain_columns c h).within Fields.unmarked_table Prod.snd

theorem plain_joinedColumns : ∀ c ∈ joinedColumns, c.Plain := by
  have hjoined : ∀ c ∈ joinedColumns,
      c ∈ PropertyRow.columns.map own ∨ c ∈ FieldRow.columns.map ofField := by
    simp [joinedColumns, PropertyRow.columns, FieldRow.columns]
  intro c hc
  rcases hjoined c hc with h | h
  · obtain ⟨c, hown, rfl⟩ := List.mem_map.1 h
    exact plain_own hown
  · obtain ⟨c, hfield, rfl⟩ := List.mem_map.1 h
    exact plain_ofField hfield

theorem unmarked_joinedSource : Unmarked joinedSource :=
  Join.unmarked_source unmarked_table Fields.unmarked_table plain_fieldColumn Fields.plain_idColumn

theorem plain_insert (r : PropertyRow) : (insert r).fragment.Plain :=
  Insert.plain_fragment unmarked_table plain_columns

theorem plain_byId (id : String) : (byId id).fragment.Plain :=
  Select.plain_fragment plain_joinedColumns unmarked_joinedSource
    (plain_oneColumn (plain_own (by simp [PropertyRow.columns])) _) (fun _ ho => nomatch ho)

theorem plain_ofObject (objectId : String) : (ofObject objectId).fragment.Plain := by
  refine Select.plain_fragment plain_joinedColumns unmarked_joinedSource
    (plain_oneColumn (plain_own (by simp [PropertyRow.columns])) _) ?_
  intro o ho
  simp only [ofObject, List.mem_cons, List.not_mem_nil, or_false] at ho
  rcases ho with rfl | rfl
  · exact plain_ofField (by simp [FieldRow.columns])
  · exact plain_own (by simp [PropertyRow.columns])

theorem plain_valuesOfField (fieldId : String) : (valuesOfField fieldId).fragment.Plain := by
  refine Select.plain_fragment ?_ (unmarked_quoted.2 unmarked_table)
    (plain_oneColumn plain_fieldColumn _) (List.forall_mem_singleton.2 plain_idColumn)
  intro c hc
  refine plain_columns c ?_
  simp only [valuesOfField, List.mem_cons, List.not_mem_nil, or_false] at hc
  rcases hc with rfl | rfl <;> simp [PropertyRow.columns]

theorem plain_countOf (objectId fieldId : String) : (countOf objectId fieldId).fragment.Plain :=
  Count.plain_fragment (unmarked_quoted.2 unmarked_table) (List.forall_mem_cons.2
    ⟨Comparison.plain_equals plain_objectColumn _, plain_oneColumn plain_fieldColumn _⟩)

theorem plain_updateValue (id value : String) : (updateValue id value).fragment.Plain := by
  have hnames : ∀ name ∈ ["value"], Unmarked name := by decide
  exact Update.plain_fragment unmarked_table hnames (plain_oneColumn plain_idColumn _)

theorem plain_restamp (objectId : String) (scope : Scope) :
    (restamp objectId scope).fragment.Plain := by
  have hnames : ∀ name ∈ ["channel_id", "team_id"], Unmarked name := by decide
  have hother : (Condition.either
      (.differs PropertyRow.channelColumn (.text scope.channelId))
      (.differs PropertyRow.teamColumn (.text scope.teamId))).fragment.Plain :=
    Condition.plain_either
      (Comparison.plain_differs (plain_columns _ (by simp [PropertyRow.columns])) _)
      (Comparison.plain_differs (plain_columns _ (by simp [PropertyRow.columns])) _)
  exact Update.plain_fragment unmarked_table hnames (List.forall_mem_cons.2
    ⟨Comparison.plain_equals plain_objectColumn _, List.forall_mem_singleton.2 hother⟩)

theorem plain_delete (id : String) : (delete id).fragment.Plain :=
  Delete.plain_fragment unmarked_table (plain_oneColumn plain_idColumn _)

theorem plain_deleteOfField (fieldId : String) : (deleteOfField fieldId).fragment.Plain :=
  Delete.plain_fragment unmarked_table (plain_oneColumn plain_fieldColumn _)

end Properties

namespace Views

theorem columns_assignments_eq {p p' : Parts} (htitle : p.title.isSome = p'.title.isSome)
    (hquery : p.query.isSome = p'.query.isSome) (hlayout : p.layout.isSome = p'.layout.isSome) :
    (assignments p).map Assignment.column = (assignments p').map Assignment.column := by
  have hcolumn {o o' : Option String} (h : o.isSome = o'.isSome) (name : String)
      (set set' : String → ViewRow → ViewRow) :
      (o.toList.map (Assignment.text name set)).map Assignment.column =
        (o'.toList.map (Assignment.text name set')).map Assignment.column := by
    obtain ⟨rfl, rfl⟩ | ⟨a, a', rfl, rfl⟩ := both_or_neither h
    · rfl
    · rfl
  simp only [assignments, List.map_append]
  congr 1
  · congr 1
    · exact hcolumn htitle _ _ _
    · exact hcolumn hquery _ _ _
  · exact hcolumn hlayout _ _ _

theorem form_update_eq {p p' : Parts} (id id' : String)
    (htitle : p.title.isSome = p'.title.isSome) (hquery : p.query.isSome = p'.query.isSome)
    (hlayout : p.layout.isSome = p'.layout.isSome) :
    (update? id p).map (fun q => q.fragment.form) =
      (update? id' p').map fun q => q.fragment.form := by
  have hcolumns := columns_assignments_eq htitle hquery hlayout
  have hempty : (assignments p).isEmpty = (assignments p').isEmpty := by
    rw [← List.isEmpty_map (f := Assignment.column), hcolumns, List.isEmpty_map]
  unfold update?
  rw [hempty]
  split
  · rfl
  · rw [Option.map_some, Option.map_some]
    exact congrArg some (Update.form_fragment_eq rfl hcolumns rfl)

theorem unmarked_table : Unmarked ViewRow.table := by decide

theorem plain_columns : ∀ c ∈ ViewRow.columns, c.Plain := by decide

theorem plain_own {c : Column ViewRow} (h : c ∈ ViewRow.columns) : (own c).Plain :=
  (plain_columns c h).within unmarked_table id

theorem plain_beside {c : Column ViewRow} (h : c ∈ ViewRow.columns) : (beside c).Plain :=
  (plain_columns c h).within unmarked_table Prod.fst

theorem plain_insert (r : ViewRow) : (insert r).fragment.Plain :=
  Insert.plain_fragment unmarked_table plain_columns

theorem plain_byId (id : String) : (byId id).fragment.Plain := by
  refine plain_byColumn ?_ unmarked_table (plain_own (by simp [ViewRow.columns])) _
  intro c hc
  obtain ⟨c, hown, rfl⟩ := List.mem_map.1 hc
  exact plain_own hown

theorem plain_update {id : String} {p : Parts} {q : Update ViewRow} (h : update? id p = some q) :
    q.fragment.Plain := by
  unfold update? at h
  split at h
  · cases h
  · cases h
    have hnames : ∀ name ∈ ["title", "query", "format"], Unmarked name := by decide
    refine Update.plain_fragment unmarked_table ?_
      (plain_oneColumn (plain_columns _ (by simp [ViewRow.columns])) _)
    intro name hname
    refine hnames name ?_
    obtain ⟨a, ha, rfl⟩ := List.mem_map.1 hname
    simp only [assignments, List.mem_append, List.mem_map] at ha
    obtain (⟨t, _, rfl⟩ | ⟨t, _, rfl⟩) | ⟨t, _, rfl⟩ := ha <;> simp

theorem plain_ofMember {c : Column Member} (h : c.Plain) : (ofMember c).Plain :=
  h.within (by decide) Prod.snd

theorem plain_isOfView : isOfView.fragment.Plain := by
  have hid : ViewRow.idColumn.Plain := plain_columns _ (by simp [ViewRow.columns])
  exact Comparison.plain_agrees (plain_ofMember (by decide))
    (hid.within unmarked_table fun r : WithMembers × Member => r.1.1)

theorem unmarked_members : Unmarked members.written :=
  unmarked_append.2 ⟨unmarked_quoted.2 (by decide), by decide⟩

theorem plain_visibleTo (userId : String) : (visibleTo userId).fragment.Plain := by
  have huser : (Comparison.equals (ofMember MemberRow.userColumn) (.text userId)).fragment.Plain :=
    Comparison.plain_equals (plain_ofMember (by decide)) _
  have hlists : (listsUser userId).fragment.Plain :=
    Condition.plain_hasRow (Lookup.plain_among unmarked_members
      (List.forall_mem_cons.2 ⟨plain_isOfView, List.forall_mem_singleton.2 huser⟩)
      Lookup.plain_here)
  have hanybody : listsAnybody.fragment.Plain :=
    Condition.plain_hasRow (Lookup.plain_among unmarked_members
      (List.forall_mem_singleton.2 plain_isOfView) Lookup.plain_here)
  refine Select.plain_fragment ?_ (unmarked_quoted.2 unmarked_table)
    (List.forall_mem_singleton.2 (Condition.plain_either hlists (Condition.plain_not hanybody))) ?_
  · intro c hc
    obtain ⟨c, hcolumn, rfl⟩ := List.mem_map.1 hc
    exact plain_beside hcolumn
  · intro o ho
    simp only [visibleTo, List.mem_cons, List.not_mem_nil, or_false] at ho
    rcases ho with rfl | rfl
    · exact plain_beside (by simp [ViewRow.columns])
    · exact plain_beside (by simp [ViewRow.columns])

end Views

namespace Members

theorem unmarked_table : Unmarked MemberRow.table := by decide

theorem plain_columns : ∀ c ∈ MemberRow.columns, c.Plain := by decide

theorem plain_viewColumn : MemberRow.viewColumn.Plain :=
  plain_columns _ (by simp [MemberRow.columns])

theorem plain_userColumn : MemberRow.userColumn.Plain :=
  plain_columns _ (by simp [MemberRow.columns])

theorem plain_insert (m : Member) : (insert m).fragment.Plain :=
  Insert.plain_fragment unmarked_table plain_columns

theorem plain_countOf (viewId userId : String) : (countOf viewId userId).fragment.Plain :=
  Count.plain_fragment (unmarked_quoted.2 unmarked_table) (List.forall_mem_cons.2
    ⟨Comparison.plain_equals plain_viewColumn _, plain_oneColumn plain_userColumn _⟩)

theorem plain_ofView (viewId : String) : (ofView viewId).fragment.Plain :=
  Select.plain_fragment (List.forall_mem_singleton.2 plain_userColumn)
    (unmarked_quoted.2 unmarked_table) (plain_oneColumn plain_viewColumn _)
    (List.forall_mem_singleton.2 plain_userColumn)

end Members

namespace Posts

open Fragment

theorem form_byIds_eq {ids ids' : List String} (h : ids.length = ids'.length) :
    (byIds ids).fragment.form = (byIds ids').fragment.form := by
  refine Select.form_fragment_eq rfl rfl ?_ rfl rfl rfl
  have hisIn : (Condition.isIn PostRow.idColumn (ids.map .text)).fragment.form =
      (Condition.isIn PostRow.idColumn (ids'.map .text)).fragment.form :=
    Comparison.form_isIn_eq (by simpa using h)
  exact congrArg (fun form => [(true, form)]) hisIn

theorem form_timeline (channelId channelId' : String) (page page' : Page) :
    (timeline channelId page).fragment.form = (timeline channelId' page').fragment.form := by
  have hwindow : (timeline channelId page).window.isSome =
      (timeline channelId' page').window.isSome := by
    simp only [timeline, Option.isSome_some]
  exact Select.form_fragment_eq rfl rfl rfl rfl rfl hwindow

theorem unmarked_table : Unmarked PostRow.table := by decide

theorem plain_columns : ∀ c ∈ PostRow.columns, c.Plain := by decide

theorem plain_idColumn : PostRow.idColumn.Plain :=
  plain_columns _ (by simp [PostRow.columns])

theorem plain_byId (id : String) : (byId id).fragment.Plain :=
  plain_byColumn plain_columns unmarked_table plain_idColumn _

theorem plain_byIds (ids : List String) : (byIds ids).fragment.Plain :=
  Select.plain_fragment plain_columns (unmarked_quoted.2 unmarked_table)
    (List.forall_mem_singleton.2 (Comparison.plain_isIn plain_idColumn _))
    (fun _ ho => nomatch ho)

theorem plain_timeline (channelId : String) (page : Page) :
    (timeline channelId page).fragment.Plain := by
  refine Select.plain_fragment plain_columns (unmarked_quoted.2 unmarked_table)
    (plain_oneColumn (plain_columns _ (by simp [PostRow.columns])) _) ?_
  intro o ho
  refine plain_columns _ ?_
  simp only [timeline, List.mem_cons, List.not_mem_nil, or_false] at ho
  rcases ho with rfl | rfl <;> simp [PostRow.columns]

end Posts

namespace Channels

theorem plain_byId (id : String) : (byId id).fragment.Plain := by
  have hcolumns : ∀ c ∈ ChannelRow.columns, c.Plain := by decide
  exact plain_byColumn hcolumns (by decide) (hcolumns _ (by simp [ChannelRow.columns])) _

theorem plain_roleOf (channelId userId : String) : (roleOf channelId userId).fragment.Plain := by
  have htable : Unmarked RoleRow.table := by decide
  have hrole : RoleRow.roleColumn.Plain := by decide
  have hchannel : RoleRow.channelColumn.Plain := by decide
  have huser : RoleRow.userColumn.Plain := by decide
  exact Select.plain_fragment (List.forall_mem_singleton.2 hrole) (unmarked_quoted.2 htable)
    (List.forall_mem_cons.2 ⟨Comparison.plain_equals hchannel _, plain_oneColumn huser _⟩)
    (fun _ ho => nomatch ho)

end Channels

namespace Any

theorem form_eq {a b : Any} (h : SameShape a b) :
    a.fragment?.map Fragment.form = b.fragment?.map Fragment.form := by
  cases h with
  | listFields f f' team term ownOnly =>
    exact congrArg some (Fields.form_list_eq team term ownOnly)
  | updateView id id' p p' title query layout =>
    simpa [fragment?, Function.comp_def] using Views.form_update_eq id id' title query layout
  | postsByIds ids ids' length => exact congrArg some (Posts.form_byIds_eq length)
  | wanted f f' texts texts' length =>
    exact congrArg some (Objects.Clause.form_wanted_eq f f' length)
  | unwanted f f' texts texts' length =>
    exact congrArg some (Objects.Clause.form_unwanted_eq f f' length)
  | objects q q' type type' page page' includes excludes channel team ofType =>
    simp only [fragment?, Objects.compile, Objects.hasCriteria_eq includes excludes]
    split
    · exact congrArg some (Objects.form_select_eq page page' includes excludes channel team ofType)
    · rfl
  | timeline id page id' page' => exact congrArg some (Posts.form_timeline id id' page page')
  | _ => rfl

theorem plain {a : Any} {f : Fragment} (h : a.fragment? = some f) : f.Plain := by
  cases a with
  | insertField r => cases h; exact Fields.plain_insert r
  | fieldById id => cases h; exact Fields.plain_byId id
  | listFields filter => cases h; exact Fields.plain_list filter
  | updateField r => cases h; exact Fields.plain_update r
  | deleteField id => cases h; exact Fields.plain_delete id
  | insertProperty r => cases h; exact Properties.plain_insert r
  | propertyById id => cases h; exact Properties.plain_byId id
  | propertiesOfObject objectId => cases h; exact Properties.plain_ofObject objectId
  | valuesOfField fieldId => cases h; exact Properties.plain_valuesOfField fieldId
  | countProperties objectId fieldId => cases h; exact Properties.plain_countOf objectId fieldId
  | updateValue id value => cases h; exact Properties.plain_updateValue id value
  | restamp objectId scope => cases h; exact Properties.plain_restamp objectId scope
  | deleteProperty id => cases h; exact Properties.plain_delete id
  | deletePropertiesOfField fieldId => cases h; exact Properties.plain_deleteOfField fieldId
  | insertView r => cases h; exact Views.plain_insert r
  | viewById id => cases h; exact Views.plain_byId id
  | updateView id p =>
    obtain ⟨q, hq, rfl⟩ := Option.map_eq_some_iff.1 h
    exact Views.plain_update hq
  | viewsVisibleTo userId => cases h; exact Views.plain_visibleTo userId
  | insertMember m => cases h; exact Members.plain_insert m
  | countMembers viewId userId => cases h; exact Members.plain_countOf viewId userId
  | membersOfView viewId => cases h; exact Members.plain_ofView viewId
  | postById id => cases h; exact Posts.plain_byId id
  | postsByIds ids => cases h; exact Posts.plain_byIds ids
  | timeline channelId page => cases h; exact Posts.plain_timeline channelId page
  | channelById id => cases h; exact Channels.plain_byId id
  | roleOf channelId userId => cases h; exact Channels.plain_roleOf channelId userId
  | clause c => cases h; exact c.plain_fragment
  | objects q type page =>
    simp only [fragment?, Objects.compile] at h
    split at h
    · cases h
      exact Objects.plain_select q type page
    · cases h

/-- No text that a caller hands over is part of a statement: statements of one shape have one text,
and each question mark in it stands for the value that is bound in its place. What is written by
hand, as a text made from a number and a list of values apart from it, gives just the statement's
part: no mark lacks its value, no value is left over, and none goes to the mark of another. -/
theorem text_without_data :
    (∀ a b : Any, SameShape a b → a.fragment?.map Fragment.text = b.fragment?.map Fragment.text) ∧
    (∀ (a : Any) (f : Fragment), a.fragment? = some f →
      f.text.toList.count '?' = f.params.length ∧
      ∀ write, Fragment.filled f.text.toList (f.params.map write) = f.rendered write) ∧
    (∀ c : Objects.Clause, c.template.Gives c.fragment) ∧
    ∀ pattern, (Fields.nameTemplate pattern).Gives (Fields.nameCondition pattern).fragment := by
  refine ⟨?_, ?_, Objects.Clause.gives_template, Fields.gives_nameTemplate⟩
  · intro a b hshape
    have hform := form_eq hshape
    cases ha : a.fragment? with
    | none =>
      rw [ha] at hform
      rw [Option.map_eq_none_iff.1 hform.symm]
    | some f =>
      rw [ha, Option.map_some] at hform
      obtain ⟨g, hg, hsame⟩ := Option.map_eq_some_iff.1 hform.symm
      rw [hg, Option.map_some, Option.map_some, Fragment.text_eq_of_form hsame]
  · intro a f ha
    exact ⟨Fragment.count_text (plain ha), Fragment.filled_text (plain ha)⟩

/-- A query whose texts would mean something in a statement. -/
def oddQuery : Query where
  includes := .ofList [("f?", ["' OR 1 = 1 --", "?"])]
  excludes := .ofList [("\")", ["%"])]
  channelId := some "c' ?"

def tameQuery : Query where
  includes := .ofList [("f", ["a", "b"])]
  excludes := .ofList [("g", ["c"])]
  channelId := some "d"

theorem odd_texts_stay_out :
    ∃ f g, (objects oddQuery none ⟨-1, 3⟩).fragment? = some f ∧
      (objects tameQuery none ⟨7, 20⟩).fragment? = some g ∧ f.text = g.text ∧
      f.text.toList.count '?' = 9 ∧ f.params.length = 9 := by
  have hshape : SameShape (objects oddQuery none ⟨-1, 3⟩) (objects tameQuery none ⟨7, 20⟩) :=
    .objects _ _ _ _ _ _ (by decide +kernel) (by decide +kernel) (by decide +kernel)
      (by decide +kernel) rfl
  obtain ⟨hsame, hvalues, _⟩ := text_without_data
  obtain ⟨f, hf⟩ := Option.isSome_iff_exists.1
    (show (objects oddQuery none ⟨-1, 3⟩).fragment?.isSome by decide +kernel)
  obtain ⟨g, hg⟩ := Option.isSome_iff_exists.1
    (show (objects tameQuery none ⟨7, 20⟩).fragment?.isSome by decide +kernel)
  have htext := hsame _ _ hshape
  rw [hf, hg] at htext
  have hlength : f.params.length = 9 := by
    have h : (objects oddQuery none ⟨-1, 3⟩).fragment?.map (fun f => f.params.length) = some 9 := by
      decide +kernel
    rw [hf] at h
    exact Option.some.inj h
  exact ⟨f, g, hf, hg, Option.some.inj htext, (hvalues _ f hf).1.trans hlength, hlength⟩

end Any

end Statement
end PropertyBoard
