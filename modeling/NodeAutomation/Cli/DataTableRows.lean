import Mathlib
import NodeAutomation.Cli.LikePatterns
import NodeAutomation.Lib.Clauses
import NodeAutomation.Workflow.ExtractReferences

/-! The rows of a data table that are selected by a filter and a search term
(`packages/cli/src/modules/data-table/data-table-rows.repository.ts`). Both are written into one list of
conditions, in which `AND` binds closer than `OR`. -/

namespace NodeAutomation.DataTableFilters
open Wildcards Clauses

inductive FilterConditionType where
  | eq
  | neq
  | like
  | ilike
  | gt
  | gte
  | lt
  | lte
  deriving DecidableEq

/-- `validateAndTransformFilters` lets nothing but equality be asked of null. -/
structure DataTableFilterRecord (ν : Type*) where
  columnName : String
  condition : FilterConditionType
  value : Option ν
  null_equality : value = none → condition = .eq ∨ condition = .neq

inductive FilterType where
  | and
  | or
  deriving DecidableEq

structure DataTableFilter (ν : Type*) where
  type : FilterType
  filters : List (DataTableFilterRecord ν)

structure ListDataTableContentQueryDto (ν : Type*) where
  filter : Option (DataTableFilter ν)
  search : Option Text

inductive DbType where
  | sqlite
  | sqlitePooled
  | postgres
  deriving DecidableEq

inductive Operator where
  | eq
  | neq
  | gt
  | gte
  | lt
  | lte
  deriving DecidableEq

/-- What the database does with values other than null. Its folding of letters, to compare them without
case, keeps the letters that mean something in a pattern apart from all others. -/
structure Database (ν : Type*) where
  type : DbType
  compare : Operator → ν → ν → Bool
  toText : ν → Text
  fold : Char → Char
  fold_special : ∀ c special, special = '%' ∨ special = '_' ∨ special = '\\' →
    (fold c = special ↔ c = special)

abbrev Row (ν : Type*) := String → Option ν

inductive SqlCondition (ν : Type*) where
  | isNull (column : String)
  | isNotNull (column : String)
  | compare (column : String) (operator : Operator) (value : ν)
  | differsOrNull (column : String) (value : ν)
  | glob (column : String) (pattern : Text)
  | like (column : String) (pattern : Text)
  | ilike (column : String) (pattern : Text)
  | anyIlike (columns : List String) (pattern : Text)

variable {ν : Type*}

/-- `column ILIKE pattern ESCAPE '\'`, on SQLite `UPPER(column) LIKE UPPER(pattern) ESCAPE '\'`. -/
def Database.ilike (db : Database ν) (value : Option ν) (pattern : Text) : Truth :=
  value.bind fun value => DataTableFilters.like '\\' ((db.toText value).map db.fold) (pattern.map db.fold)

def SqlCondition.eval (db : Database ν) (row : Row ν) : SqlCondition ν → Truth
  | .isNull column => some (row column).isNone
  | .isNotNull column => some (row column).isSome
  | .compare column operator value => (row column).map (db.compare operator · value)
  | .differsOrNull column value =>
    Truth.or ((row column).map (db.compare .neq · value)) (some (row column).isNone)
  | .glob column pattern => (row column).map fun value => DataTableFilters.glob (db.toText value) pattern
  | .like column pattern => (row column).bind fun value => DataTableFilters.like '\\' (db.toText value) pattern
  | .ilike column pattern => db.ilike (row column) pattern
  | .anyIlike columns pattern => Truth.any (columns.map fun column => db.ilike (row column) pattern)

abbrev QueryBuilder (ν : Type*) := List (Connector × SqlCondition ν)

def QueryBuilder.andWhere (query : QueryBuilder ν) (condition : SqlCondition ν) : QueryBuilder ν :=
  query ++ [(.and, condition)]

def QueryBuilder.orWhere (query : QueryBuilder ν) (condition : SqlCondition ν) : QueryBuilder ν :=
  query ++ [(.or, condition)]

def getConditionAndParams (db : Database ν) (filter : DataTableFilterRecord ν) : SqlCondition ν :=
  match filter.value with
  | none => if filter.condition = .eq then .isNull filter.columnName else .isNotNull filter.columnName
  | some value =>
    match filter.condition with
    | .eq => .compare filter.columnName .eq value
    | .gt => .compare filter.columnName .gt value
    | .gte => .compare filter.columnName .gte value
    | .lt => .compare filter.columnName .lt value
    | .lte => .compare filter.columnName .lte value
    | .neq => .differsOrNull filter.columnName value
    | .like =>
      if db.type = .postgres then .like filter.columnName (escapeLikeSpecials (db.toText value))
      else .glob filter.columnName (toSqliteGlobFromPercent (db.toText value))
    | .ilike => .ilike filter.columnName (escapeLikeSpecials (db.toText value))

def applyFilters (db : Database ν) (query : QueryBuilder ν) (filter : DataTableFilter ν) : QueryBuilder ν :=
  match filter.filters.map (getConditionAndParams db) with
  | [condition] => query.andWhere condition
  | conditions =>
    conditions.foldl (fun query condition =>
      if filter.type = .or then query.orWhere condition else query.andWhere condition) query

def searchTerm (rawSearch : Text) : Text :=
  if '%' ∈ rawSearch then rawSearch else '%' :: (rawSearch ++ ['%'])

def applySearch (query : QueryBuilder ν) (rawSearch : Text) (columns : List String) : QueryBuilder ν :=
  if columns.isEmpty then query
  else query.andWhere (.anyIlike columns (escapeLikeSpecials (searchTerm rawSearch)))

def getManyQuery (db : Database ν) (dto : ListDataTableContentQueryDto ν) (columns : List String) :
    QueryBuilder ν :=
  let query := match dto.filter with
    | some filter => applyFilters db [] filter
    | none => []
  match dto.search with
  | some search => if 0 < (ExtractReferences.trim search).length then applySearch query search columns else query
  | none => query

structure RowsAndCount (ν : Type*) where
  count : Nat
  data : List (Row ν)

def getManyAndCount (db : Database ν) (table : List (Row ν)) (dto : ListDataTableContentQueryDto ν)
    (columns : List String) : RowsAndCount ν :=
  let data := table.filter fun row => truth (SqlCondition.eval db row) (getManyQuery db dto columns) = some true
  { count := data.length, data }

/-- The row satisfies a single condition; in a pattern `%` stands for any string. -/
def DataTableFilterRecord.Satisfied (db : Database ν) (row : Row ν) (filter : DataTableFilterRecord ν) : Prop :=
  match filter.condition, filter.value with
  | .eq, none => row filter.columnName = none
  | .neq, none => row filter.columnName ≠ none
  | _, none => False
  | .neq, some value => ∀ held ∈ row filter.columnName, db.compare .neq held value = true
  | .eq, some value => ∃ held ∈ row filter.columnName, db.compare .eq held value = true
  | .gt, some value => ∃ held ∈ row filter.columnName, db.compare .gt held value = true
  | .gte, some value => ∃ held ∈ row filter.columnName, db.compare .gte held value = true
  | .lt, some value => ∃ held ∈ row filter.columnName, db.compare .lt held value = true
  | .lte, some value => ∃ held ∈ row filter.columnName, db.compare .lte held value = true
  | .like, some value => ∃ held ∈ row filter.columnName, Denotes '%' (db.toText value) (db.toText held)
  | .ilike, some value => ∃ held ∈ row filter.columnName,
      Denotes '%' ((db.toText value).map db.fold) ((db.toText held).map db.fold)

def DataTableFilter.Satisfied (db : Database ν) (row : Row ν) (filter : DataTableFilter ν) : Prop :=
  match filter.type with
  | .and => ∀ condition ∈ filter.filters, condition.Satisfied db row
  | .or => ∃ condition ∈ filter.filters, condition.Satisfied db row

/-- The text contains the term, whatever the case of its letters; a term with `%` is itself a pattern. -/
def ContainsTerm (db : Database ν) (search text : Text) : Prop :=
  if '%' ∈ search then Denotes '%' (search.map db.fold) (text.map db.fold)
  else search.map db.fold <:+: text.map db.fold

def SearchFinds (db : Database ν) (row : Row ν) (columns : List String) (search : Text) : Prop :=
  ∃ column ∈ columns, ∃ held ∈ row column, ContainsTerm db search (db.toText held)

open Classical in
noncomputable def rowsAskedFor (db : Database ν) (table : List (Row ν)) (filter : DataTableFilter ν)
    (search : Text) (columns : List String) : List (Row ν) :=
  table.filter fun row => filter.Satisfied db row ∧ SearchFinds db row columns search

variable (db : Database ν) (row : Row ν)

theorem map_fold_escapeLikeSpecials (pattern : Text) :
    (escapeLikeSpecials pattern).map db.fold = escapeLikeSpecials (pattern.map db.fold) := by
  induction pattern with
  | nil => rfl
  | cons c pattern ih =>
    have backslash := db.fold_special c '\\' (by decide)
    have underscore := db.fold_special c '_' (by decide)
    rw [escapeLikeSpecials_cons, List.map_append, ih, List.map_cons, escapeLikeSpecials_cons]
    simp only [backslash, underscore]
    congr 1
    split
    · next special => subst special; simp [backslash.2]
    · split
      · next special => subst special; simp [underscore.2, (db.fold_special '\\' '\\' (by decide)).2]
      · rfl

theorem ilike_iff (value : Option ν) (pattern : Text) :
    db.ilike value (escapeLikeSpecials pattern) = some true ↔
      ∃ held ∈ value, Denotes '%' (pattern.map db.fold) ((db.toText held).map db.fold) := by
  simp only [Database.ilike, Option.bind_eq_some_iff, map_fold_escapeLikeSpecials, like_iff_denotes,
    Option.mem_def]

theorem containsTerm_iff (search text : Text) : ContainsTerm db search text ↔
    Denotes '%' ((searchTerm search).map db.fold) (text.map db.fold) := by
  have percent (c : Char) := db.fold_special c '%' (by decide)
  rw [ContainsTerm, searchTerm]
  split
  · exact Iff.rfl
  · next plain =>
    have folded : '%' ∉ search.map db.fold := by
      rw [List.mem_map]
      rintro ⟨c, c_mem, eq⟩
      exact plain ((percent c).1 eq ▸ c_mem)
    rw [List.map_cons, List.map_append, List.map_singleton, (percent '%').2 rfl]
    exact (denotes_enclosed_iff folded).symm

theorem holds_getConditionAndParams (filter : DataTableFilterRecord ν) :
    Holds (SqlCondition.eval db row) (getConditionAndParams db filter) ↔ filter.Satisfied db row := by
  obtain ⟨column, condition, value, null_equality⟩ := filter
  cases value with
  | none =>
    obtain rfl | rfl := null_equality rfl
    · simp [Holds, getConditionAndParams, SqlCondition.eval, DataTableFilterRecord.Satisfied]
    · simp [Holds, getConditionAndParams, SqlCondition.eval, DataTableFilterRecord.Satisfied,
        Option.isSome_iff_ne_none]
  | some value =>
    cases condition with
    | neq =>
      cases held : row column <;>
        simp [Holds, getConditionAndParams, SqlCondition.eval, DataTableFilterRecord.Satisfied, held,
          Truth.or_eq_true_iff]
    | like =>
      by_cases postgres : db.type = .postgres
      · simp [Holds, getConditionAndParams, SqlCondition.eval, DataTableFilterRecord.Satisfied, postgres,
          Option.bind_eq_some_iff, like_iff_denotes]
      · simp [Holds, getConditionAndParams, SqlCondition.eval, DataTableFilterRecord.Satisfied, postgres,
          glob_iff_denotes]
    | ilike =>
      simp [Holds, getConditionAndParams, SqlCondition.eval, DataTableFilterRecord.Satisfied, ilike_iff]
    | _ => simp [Holds, getConditionAndParams, SqlCondition.eval, DataTableFilterRecord.Satisfied]

theorem holds_anyIlike (columns : List String) (search : Text) :
    Holds (SqlCondition.eval db row) (.anyIlike columns (escapeLikeSpecials (searchTerm search))) ↔
      SearchFinds db row columns search := by
  simp only [Holds, SqlCondition.eval, Truth.any_eq_true_iff, List.mem_map, ilike_iff, SearchFinds,
    containsTerm_iff]

/-- Only several conditions of an `or` filter are joined by `OR`. -/
def DataTableFilter.connector (filter : DataTableFilter ν) : Connector :=
  if filter.type = .or ∧ filter.filters.length ≠ 1 then .or else .and

theorem foldl_where (type : FilterType) (query : QueryBuilder ν) (conditions : List (SqlCondition ν)) :
    conditions.foldl (fun query condition =>
        if type = .or then query.orWhere condition else query.andWhere condition) query =
      query ++ conditions.map (if type = .or then Connector.or else .and, ·) := by
  induction conditions generalizing query with
  | nil => rw [List.foldl_nil, List.map_nil, List.append_nil]
  | cons condition conditions ih =>
    rw [List.foldl_cons, ih, List.map_cons, List.append_cons]
    split <;> rfl

theorem applyFilters_nil (filter : DataTableFilter ν) : applyFilters db [] filter =
    (filter.filters.map (getConditionAndParams db)).map (filter.connector, ·) := by
  unfold applyFilters
  split
  · next condition single =>
    have length : filter.filters.length = 1 := by simpa using congrArg List.length single
    rw [single, DataTableFilter.connector, if_neg (fun several => several.2 length)]
    rfl
  · next conditions several =>
    have length : filter.filters.length ≠ 1 := by
      intro length
      obtain ⟨condition, single⟩ := List.length_eq_one_iff.1 length
      exact several (getConditionAndParams db condition) (by rw [single]; rfl)
    rw [foldl_where, List.nil_append, DataTableFilter.connector]
    simp only [length, ne_eq, not_false_eq_true, and_true]

def SearchSkipped (columns : List String) (search : Text) : Prop :=
  ExtractReferences.trim search = [] ∨ columns = []

theorem getManyQuery_eq (filter : DataTableFilter ν) (search : Text) (columns : List String) :
    (SearchSkipped columns search ∧
        getManyQuery db ⟨some filter, some search⟩ columns = applyFilters db [] filter) ∨
      (¬ SearchSkipped columns search ∧ getManyQuery db ⟨some filter, some search⟩ columns =
        applyFilters db [] filter ++ [(.and, .anyIlike columns (escapeLikeSpecials (searchTerm search)))]) := by
  simp only [getManyQuery, applySearch, SearchSkipped, List.length_pos_iff, List.isEmpty_iff, QueryBuilder.andWhere]
  by_cases blank : ExtractReferences.trim search = [] <;> by_cases empty : columns = [] <;> simp [blank, empty]

variable {db row} {filter : DataTableFilter ν} {search : Text} {columns : List String}

theorem satisfied_iff_all (connector : filter.connector = .and) : filter.Satisfied db row ↔
    ∀ condition ∈ filter.filters.map (getConditionAndParams db), Holds (SqlCondition.eval db row) condition := by
  simp only [List.forall_mem_map, holds_getConditionAndParams, DataTableFilter.Satisfied]
  cases type : filter.type with
  | and => exact Iff.rfl
  | or =>
    have single : filter.filters.length = 1 := by simpa [DataTableFilter.connector, type] using connector
    obtain ⟨condition, single⟩ := List.length_eq_one_iff.1 single
    simp [single]

theorem satisfied_iff_any (type : filter.type = .or) : filter.Satisfied db row ↔
    ∃ condition ∈ filter.filters.map (getConditionAndParams db), Holds (SqlCondition.eval db row) condition := by
  simp only [DataTableFilter.Satisfied, type, List.mem_map, exists_exists_and_eq_and, holds_getConditionAndParams]

theorem type_of_connector (connector : filter.connector = .or) : filter.type = .or := by
  by_contra other
  simp [DataTableFilter.connector, other] at connector

theorem truth_applyFilters : truth (SqlCondition.eval db row) (applyFilters db [] filter) = some true ↔
    filter.filters = [] ∨ filter.Satisfied db row := by
  rw [applyFilters_nil]
  cases connector : filter.connector with
  | and =>
    rw [truth_and, satisfied_iff_all connector]
    refine ⟨.inr, ?_⟩
    rintro (none | all)
    · simp [none]
    · exact all
  | or =>
    rw [satisfied_iff_any (type_of_connector connector)]
    by_cases none : filter.filters = []
    · simp [none, truth]
    · rw [truth_or (by simpa using none), or_iff_right none]

theorem truth_and_more (connector : filter.connector = .and) (more : SqlCondition ν) :
    truth (SqlCondition.eval db row) (applyFilters db [] filter ++ [(.and, more)]) = some true ↔
      filter.Satisfied db row ∧ Holds (SqlCondition.eval db row) more := by
  have joined (conditions : List (SqlCondition ν)) : conditions.map (Connector.and, ·) ++ [(.and, more)] =
      (conditions ++ [more]).map (.and, ·) := by simp
  rw [applyFilters_nil, connector, joined, truth_and, satisfied_iff_all connector]
  simp only [List.forall_mem_append, List.forall_mem_singleton]

theorem truth_or_more (connector : filter.connector = .or) (several : filter.filters ≠ [])
    (more : SqlCondition ν) :
    truth (SqlCondition.eval db row) (applyFilters db [] filter ++ [(.and, more)]) = some true ↔
      (∃ condition ∈ filter.filters.dropLast, condition.Satisfied db row) ∨
        (filter.filters.getLast several).Satisfied db row ∧ Holds (SqlCondition.eval db row) more := by
  have parts := List.dropLast_append_getLast several
  have split : applyFilters db [] filter ++ [(.and, more)] =
      (filter.filters.dropLast.map (getConditionAndParams db)).map (Connector.or, ·) ++
        [(.or, getConditionAndParams db (filter.filters.getLast several)), (.and, more)] := by
    rw [applyFilters_nil, connector]
    nth_rewrite 1 [← parts]
    simp
  rw [split, truth_or_and, holds_getConditionAndParams]
  simp only [List.mem_map, exists_exists_and_eq_and, holds_getConditionAndParams]

theorem satisfied_or_iff (type : filter.type = .or) (several : filter.filters ≠ []) : filter.Satisfied db row ↔
    (∃ condition ∈ filter.filters.dropLast, condition.Satisfied db row) ∨
      (filter.filters.getLast several).Satisfied db row := by
  have parts := List.dropLast_append_getLast several
  simp only [DataTableFilter.Satisfied, type]
  nth_rewrite 1 [← parts]
  simp only [List.mem_append, List.mem_singleton, or_and_right, exists_or, exists_eq_left]

/-- The search restricts all that the filter selects of the row: it is made at all, it finds a row that satisfies
a condition of an `or` filter other than the last, and it finds none for an `or` filter without conditions. -/
structure SearchRestricts (db : Database ν) (filter : DataTableFilter ν) (search : Text) (columns : List String)
    (row : Row ν) : Prop where
  made : SearchSkipped columns search → filter.Satisfied db row → SearchFinds db row columns search
  front : filter.type = .or → (∃ condition ∈ filter.filters.dropLast, condition.Satisfied db row) →
    SearchFinds db row columns search
  empty : filter.type = .or → filter.filters = [] →
    ¬ SearchSkipped columns search ∧ ¬ SearchFinds db row columns search

theorem satisfied_of_empty (type : filter.type = .and) (empty : filter.filters = []) : filter.Satisfied db row := by
  simp [DataTableFilter.Satisfied, type, empty]

theorem not_satisfied_of_empty (type : filter.type = .or) (empty : filter.filters = []) :
    ¬ filter.Satisfied db row := by
  simp [DataTableFilter.Satisfied, type, empty]

theorem restricts_skipped (skipped : SearchSkipped columns search) :
    (filter.filters = [] ∨ filter.Satisfied db row ↔
        filter.Satisfied db row ∧ SearchFinds db row columns search) ↔
      SearchRestricts db filter search columns row := by
  constructor
  · intro agree
    have made (sat : filter.Satisfied db row) : SearchFinds db row columns search := (agree.1 (.inr sat)).2
    refine ⟨fun _ => made, fun type front => ?_, fun type empty => ?_⟩
    · by_cases empty : filter.filters = []
      · simp [empty] at front
      · exact made ((satisfied_or_iff type empty).2 (.inl front))
    · exact absurd (agree.1 (.inl empty)).1 (not_satisfied_of_empty type empty)
  · rintro ⟨made, _, empty_or⟩
    constructor
    · rintro (empty | sat)
      · cases type : filter.type with
        | and => exact ⟨satisfied_of_empty type empty, made skipped (satisfied_of_empty type empty)⟩
        | or => exact absurd skipped (empty_or type empty).1
      · exact ⟨sat, made skipped sat⟩
    · rintro ⟨sat, _⟩
      exact .inr sat

theorem restricts_and (searched : ¬ SearchSkipped columns search) (connector : filter.connector = .and) :
    SearchRestricts db filter search columns row := by
  have single (type : filter.type = .or) : filter.filters.length = 1 := by
    simpa [DataTableFilter.connector, type] using connector
  refine ⟨fun skipped => absurd skipped searched, fun type front => ?_, fun type empty => ?_⟩
  · have nothing : filter.filters.dropLast = [] := by
      rw [← List.length_eq_zero_iff, List.length_dropLast, single type]
    simp [nothing] at front
  · simp [empty] at single
    exact absurd type single

theorem selected_iff_restricts :
    (truth (SqlCondition.eval db row) (getManyQuery db ⟨some filter, some search⟩ columns) = some true ↔
        filter.Satisfied db row ∧ SearchFinds db row columns search) ↔
      SearchRestricts db filter search columns row := by
  obtain ⟨skipped, query⟩ | ⟨searched, query⟩ := getManyQuery_eq db filter search columns
  · rw [query, truth_applyFilters]
    exact restricts_skipped skipped
  rw [query]
  cases connector : filter.connector with
  | and =>
    rw [truth_and_more connector, holds_anyIlike]
    exact iff_of_true Iff.rfl (restricts_and searched connector)
  | or =>
    have type := type_of_connector connector
    by_cases empty : filter.filters = []
    · have alone : applyFilters db [] filter = [] := by simp [applyFilters_nil, empty]
      have finds := @truth_and _ (SqlCondition.eval db row)
        [.anyIlike columns (escapeLikeSpecials (searchTerm search))]
      rw [List.map_singleton, List.forall_mem_singleton, holds_anyIlike] at finds
      rw [alone, List.nil_append, finds]
      constructor
      · intro agree
        have none : ¬ SearchFinds db row columns search := fun found =>
          not_satisfied_of_empty type empty (agree.1 found).1
        exact ⟨fun skipped => absurd skipped searched, by simp [empty], fun _ _ => ⟨searched, none⟩⟩
      · rintro ⟨_, _, none⟩
        exact ⟨fun found => absurd found (none type empty).2, fun found => found.2⟩
    · rw [truth_or_more connector empty, holds_anyIlike, satisfied_or_iff type empty]
      constructor
      · intro agree
        exact ⟨fun skipped => absurd skipped searched, fun _ front => (agree.1 (.inl front)).2,
          fun _ nothing => absurd nothing empty⟩
      · rintro ⟨_, front, _⟩
        rw [or_and_right, and_iff_left_of_imp (front type)]

/-- Exactly the rows that are asked for are selected and counted, if and only if the search restricts what
the filter selects of each row. -/
theorem getManyAndCount_intersects_iff (db : Database ν) (table : List (Row ν)) (filter : DataTableFilter ν)
    (search : Text) (columns : List String) :
    getManyAndCount db table ⟨some filter, some search⟩ columns =
        ⟨(rowsAskedFor db table filter search columns).length, rowsAskedFor db table filter search columns⟩ ↔
      ∀ row ∈ table, SearchRestricts db filter search columns row := by
  simp only [← selected_iff_restricts]
  constructor
  · intro same row row_mem
    have here : (row ∈ (getManyAndCount db table ⟨some filter, some search⟩ columns).data) =
        (row ∈ rowsAskedFor db table filter search columns) := by rw [same]
    simpa [getManyAndCount, rowsAskedFor, row_mem] using here
  · intro agree
    have data : (getManyAndCount db table ⟨some filter, some search⟩ columns).data =
        rowsAskedFor db table filter search columns :=
      List.filter_congr fun row row_mem => by simpa using agree row row_mem
    rw [← data]
    rfl

theorem toUpper_special (c special : Char) (h : special = '%' ∨ special = '_' ∨ special = '\\') :
    c.toUpper = special ↔ c = special := by
  have outside : special.toNat = 37 ∨ special.toNat = 95 ∨ special.toNat = 92 := by
    rcases h with rfl | rfl | rfl <;> decide
  rw [Char.toUpper]
  split
  · next lower =>
    simp only [Char.ext_iff, ← UInt32.toNat_inj]
    simp [UInt32.le_iff_toNat_le] at lower ⊢
    omega
  · exact Iff.rfl

/-- Texts on SQLite, whose folding is that of ASCII. -/
def sqliteTexts : Database Text where
  type := .sqlite
  compare operator held value :=
    match operator with
    | .eq => held == value
    | .neq => held != value
    | .gt => value < held
    | .gte => value ≤ held
    | .lt => held < value
    | .lte => held ≤ value
  toText := id
  fold := Char.toUpper
  fold_special := toUpper_special

def letterRow (letter : Char) : Row Text := fun column => if column = "letter" then some [letter] else none

def letterFilter (type : FilterType) (letters : List Char) : DataTableFilter Text :=
  ⟨type, letters.map fun letter => ⟨"letter", .eq, some [letter], nofun⟩⟩

/-- An `or` filter of two conditions, the first of which holds of a row without the term. -/
theorem orFilter_not_intersected :
    getManyAndCount sqliteTexts [letterRow 'x'] ⟨some (letterFilter .or ['x', 'y']), some ['z']⟩ ["letter"] ≠
      ⟨(rowsAskedFor sqliteTexts [letterRow 'x'] (letterFilter .or ['x', 'y']) ['z'] ["letter"]).length,
        rowsAskedFor sqliteTexts [letterRow 'x'] (letterFilter .or ['x', 'y']) ['z'] ["letter"]⟩ := by
  have selected : (getManyAndCount sqliteTexts [letterRow 'x']
      ⟨some (letterFilter .or ['x', 'y']), some ['z']⟩ ["letter"]).count = 1 := by decide
  have missing : ¬ SearchFinds sqliteTexts (letterRow 'x') ["letter"] ['z'] := by
    simp [SearchFinds, ContainsTerm, letterRow, sqliteTexts]
  have nothing : rowsAskedFor sqliteTexts [letterRow 'x'] (letterFilter .or ['x', 'y']) ['z'] ["letter"] = [] := by
    simp [rowsAskedFor, missing]
  intro same
  rw [same, nothing] at selected
  exact absurd selected (by decide)
end NodeAutomation.DataTableFilters
