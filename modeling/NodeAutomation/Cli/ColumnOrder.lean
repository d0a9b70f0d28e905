import NodeAutomation.Cli.DataTableColumns
import NodeAutomation.Lib.DenseOrder

/-! The columns of each data table stay in a dense order, where requests act on the positions
that their columns have when the transaction runs. -/

namespace NodeAutomation.DataTables

open Runs

variable {setting : Setting} {s s' : State}

/-- The indices of the columns of each table are `0 .. n-1`, each once. -/
def State.Ordered (s : State) : Prop :=
  ∀ dataTableId, Dense ((s.getColumns dataTableId).map (·.index))

/-- What the transaction does is what it would do with the column as it is now. -/
def ActsOnCurrent (setting : Setting) (s : State) (action : Action) (result : Except Failure State) : Prop :=
  match action with
  | .moveColumn request targetIndex => ∀ entity ∈ s.entities[request]?, ∃ column ∈ s.columns,
      column.id = entity.id ∧ s.moveColumn column targetIndex = result
  | .deleteColumn request => ∀ entity ∈ s.entities[request]?, ∃ column ∈ s.columns,
      column.id = entity.id ∧ s.deleteColumn setting column = result
  | .createDataTable _ _ | .addColumn _ _ _ | .readColumn _ _ => True

/-- A transaction that is committed leaves all tables ordered, and acts on the current position
of its column. -/
def KeepsOrder (setting : Setting) (s : State) (action : Action) : Prop :=
  ∀ s', s.transaction setting action = some (.ok s') → s'.Ordered ∧ ActsOnCurrent setting s action (.ok s')

/-- The column still exists, and no other column of its table lies between the position that
was read and the one that it has now. -/
def Undisturbed (s : State) (entity : DataTableColumn) : Prop :=
  ∃ column ∈ s.columns, column.id = entity.id ∧
    ∀ other ∈ s.getColumns entity.dataTableId, other.id ≠ entity.id →
      (entity.index ≤ other.index ↔ column.index ≤ other.index)

def State.acceptsName (setting : Setting) (s : State) (dataTableId name : String) : Prop :=
  validateNotSystemColumn name = .ok () ∧ s.validateUniqueColumnName name dataTableId = .ok () ∧
    setting.validColumnName name ∧
    ∃ names ∈ s.userTables.get dataTableId, State.hasUserColumn setting names name = false

/-- A column is added at an integer index, if at any within the table, or else is refused; and
a column is moved or deleted where it has not been disturbed, or else the transaction fails. -/
def Orderly (setting : Setting) (s : State) : Action → Prop
  | .addColumn dataTableId name (some index) =>
    0 ≤ index → index ≤ (s.getColumns dataTableId).length → setting.integersOnly = false →
      s.acceptsName setting dataTableId name → index.isInt
  | .moveColumn request targetIndex => ∀ entity ∈ s.entities[request]?, 0 ≤ targetIndex →
      targetIndex < (s.getColumns entity.dataTableId).length → Undisturbed s entity
  | .deleteColumn request => ∀ entity ∈ s.entities[request]?,
      (∃ names ∈ s.userTables.get entity.dataTableId, State.hasUserColumn setting names entity.name) →
      Undisturbed s entity
  | .addColumn _ _ none | .createDataTable _ _ | .readColumn _ _ => True

structure Kept (s : State) : Prop where
  unique : (s.columns.map (·.id)).Nodup
  fresh : ∀ column ∈ s.columns, column.id < s.nextId
  known : ∀ entity ∈ s.entities, entity.id < s.nextId
  same : ∀ entity ∈ s.entities, ∀ column ∈ s.columns, column.id = entity.id →
    column.dataTableId = entity.dataTableId ∧ column.name = entity.name
  tables : ∀ column ∈ s.columns, s.userTables.contains column.dataTableId
  ordered : s.Ordered

theorem kept_initial : Kept {} where
  unique := List.nodup_nil
  fresh _ member := absurd member List.not_mem_nil
  known _ member := absurd member List.not_mem_nil
  same _ member := absurd member List.not_mem_nil
  tables _ member := absurd member List.not_mem_nil
  ordered _ := List.Perm.refl []

theorem Kept.eq_of_id (kept : Kept s) {c d : DataTableColumn} (here : c ∈ s.columns) (there : d ∈ s.columns)
    (id : c.id = d.id) : c = d :=
  List.inj_on_of_nodup_map kept.unique here there id

@[simp] theorem id_shifted (t : String) (lowest delta : ℚ) (c : DataTableColumn) :
    (State.shifted t lowest delta c).id = c.id := by
  unfold State.shifted
  split <;> rfl

@[simp] theorem dataTableId_shifted (t : String) (lowest delta : ℚ) (c : DataTableColumn) :
    (State.shifted t lowest delta c).dataTableId = c.dataTableId := by
  unfold State.shifted
  split <;> rfl

@[simp] theorem name_shifted (t : String) (lowest delta : ℚ) (c : DataTableColumn) :
    (State.shifted t lowest delta c).name = c.name := by
  unfold State.shifted
  split <;> rfl

theorem index_shifted {t : String} {c : DataTableColumn} (mine : c.dataTableId = t) (lowest delta : ℚ) :
    (State.shifted t lowest delta c).index = Dense.shift lowest delta c.index := by
  unfold State.shifted Dense.shift
  by_cases behind : lowest ≤ c.index
  · rw [if_pos ⟨mine, behind⟩, if_pos behind]
  · rw [if_neg fun h => behind h.2, if_neg behind]

theorem shifted_of_ne {t : String} {c : DataTableColumn} (other : c.dataTableId ≠ t) (lowest delta : ℚ) :
    State.shifted t lowest delta c = c := by
  unfold State.shifted
  rw [if_neg fun h => other h.1]

theorem getColumns_map (s : State) {f : DataTableColumn → DataTableColumn}
    (stays : ∀ c, (f c).dataTableId = c.dataTableId) (t : String) :
    State.getColumns { s with columns := s.columns.map f } t = (s.getColumns t).map f := by
  unfold State.getColumns
  rw [List.filter_map]
  congr 1
  refine List.filter_congr fun c _ => ?_
  simp only [Function.comp, stays]

theorem positions_perm (kept : Kept s) {column : DataTableColumn} (here : column ∈ s.columns) :
    (s.getColumns column.dataTableId).Perm
      (column :: (s.getColumns column.dataTableId).filter (·.id ≠ column.id)) := by
  have mine : column ∈ s.getColumns column.dataTableId := List.mem_filter.2 ⟨here, by simp⟩
  have nodup : (s.getColumns column.dataTableId).Nodup :=
    (List.Nodup.of_map _ kept.unique).filter _
  have erased : (s.getColumns column.dataTableId).erase column =
      (s.getColumns column.dataTableId).filter (·.id ≠ column.id) := by
    rw [nodup.erase_eq_filter]
    refine List.filter_congr fun c member => ?_
    have equal : c = column ↔ c.id = column.id :=
      ⟨fun same => by rw [same], fun id => kept.eq_of_id (List.mem_filter.1 member).1 here id⟩
    rw [Bool.eq_iff_iff]
    simp [equal]
  rw [← erased]
  exact List.perm_cons_erase mine

def moved (entity : DataTableColumn) (targetIndex : ℚ) (column : DataTableColumn) : DataTableColumn :=
  let column := State.shifted entity.dataTableId targetIndex 1
    (State.shifted entity.dataTableId entity.index (-1) column)
  if column.id = entity.id then { column with index := targetIndex } else column

theorem moveColumn_eq (s : State) (entity : DataTableColumn) (targetIndex : Int) :
    (∃ failure, s.moveColumn entity targetIndex = .error failure) ∧
        ¬(0 ≤ targetIndex ∧ targetIndex < (s.getColumns entity.dataTableId).length) ∨
      s.moveColumn entity targetIndex = .ok { s with columns := s.columns.map (moved entity targetIndex) } ∧
        0 ≤ targetIndex ∧ targetIndex < (s.getColumns entity.dataTableId).length := by
  unfold State.moveColumn
  by_cases negative : targetIndex < 0
  · exact .inl ⟨⟨_, by rw [if_pos negative]; rfl⟩, fun h => by omega⟩
  · by_cases large : ((s.getColumns entity.dataTableId).length : Int) ≤ targetIndex
    · exact .inl ⟨⟨_, by rw [if_neg negative, if_pos large]; rfl⟩, fun h => by omega⟩
    · refine .inr ⟨?_, by omega, by omega⟩
      rw [if_neg negative, if_neg large]
      simp only [State.shiftColumns, State.updateIndex, List.map_map]
      rfl

theorem id_moved (entity : DataTableColumn) (targetIndex : ℚ) (c : DataTableColumn) :
    (moved entity targetIndex c).id = c.id := by
  unfold moved
  dsimp only
  split <;> simp

theorem dataTableId_moved (entity : DataTableColumn) (targetIndex : ℚ) (c : DataTableColumn) :
    (moved entity targetIndex c).dataTableId = c.dataTableId := by
  unfold moved
  dsimp only
  split <;> simp

theorem name_moved (entity : DataTableColumn) (targetIndex : ℚ) (c : DataTableColumn) :
    (moved entity targetIndex c).name = c.name := by
  unfold moved
  dsimp only
  split <;> simp

theorem index_moved {entity c : DataTableColumn} (targetIndex : ℚ) (other : c.id ≠ entity.id)
    (mine : c.dataTableId = entity.dataTableId) : (moved entity targetIndex c).index =
      Dense.shift targetIndex 1 (Dense.shift entity.index (-1) c.index) := by
  unfold moved
  rw [if_neg (by simpa using other), index_shifted (by simpa using mine), index_shifted mine]

theorem index_moved_self {entity c : DataTableColumn} (targetIndex : ℚ) (same : c.id = entity.id) :
    (moved entity targetIndex c).index = targetIndex := by
  unfold moved
  rw [if_pos (by simpa using same)]

theorem moved_of_ne {entity c : DataTableColumn} (targetIndex : ℚ) (other : c.id ≠ entity.id)
    (apart : c.dataTableId ≠ entity.dataTableId) : moved entity targetIndex c = c := by
  unfold moved
  rw [shifted_of_ne apart, shifted_of_ne apart]
  exact if_neg other

theorem ordered_move (kept : Kept s) {column : DataTableColumn} (here : column ∈ s.columns) {targetIndex : Int}
    (low : 0 ≤ targetIndex) (high : targetIndex < (s.getColumns column.dataTableId).length) :
    State.Ordered { s with columns := s.columns.map (moved column targetIndex) } := by
  intro t
  rw [getColumns_map s (dataTableId_moved column targetIndex) t, List.map_map]
  by_cases mine : t = column.dataTableId
  · subst mine
    have perm := positions_perm kept here
    have before := (kept.ordered column.dataTableId).perm (perm.map (·.index))
    rw [List.map_cons] at before
    have closed := before.close
    obtain ⟨k, rfl⟩ := Int.eq_ofNat_of_zero_le low
    have length : ((s.getColumns column.dataTableId).filter (·.id ≠ column.id)).length + 1 =
        (s.getColumns column.dataTableId).length := by
      rw [perm.length_eq, List.length_cons]
    have opened := closed.insert k (by rw [List.length_map, List.length_map]; omega)
    refine opened.perm ?_
    refine List.Perm.trans ?_ (perm.map _).symm
    rw [List.map_cons, List.map_map, List.map_map]
    have self : ((·.index) ∘ moved column ((k : Int) : ℚ)) column = (k : ℚ) := by
      simp only [Function.comp, index_moved_self, Int.cast_natCast]
    rw [self]
    refine List.Perm.cons _ (List.Perm.of_eq (List.map_congr_left fun c member => ?_))
    obtain ⟨table, other⟩ := List.mem_filter.1 member
    have apart : c.id ≠ column.id := by simpa using other
    have same : c.dataTableId = column.dataTableId := by simpa using (List.mem_filter.1 table).2
    simp only [Function.comp, index_moved _ apart same, Int.cast_natCast]
  · have still : (s.getColumns t).map ((·.index) ∘ moved column targetIndex) = (s.getColumns t).map (·.index) := by
      refine List.map_congr_left fun c member => ?_
      obtain ⟨present, table⟩ := List.mem_filter.1 member
      have apart : c.dataTableId ≠ column.dataTableId := by
        rw [of_decide_eq_true table]
        exact mine
      have other : c.id ≠ column.id := fun id => apart (by rw [kept.eq_of_id present here id])
      simp only [Function.comp, moved_of_ne _ other apart]
    rw [still]
    exact kept.ordered t

/-- A move with an entity that was read earlier is the move of the column as it is now, if and
only if no other column lies between. -/
theorem move_same_iff (kept : Kept s) {entity column : DataTableColumn} (known : entity ∈ s.entities)
    (here : column ∈ s.columns) (id : column.id = entity.id) (targetIndex : ℚ) :
    s.columns.map (moved column targetIndex) = s.columns.map (moved entity targetIndex) ↔
      ∀ other ∈ s.getColumns entity.dataTableId, other.id ≠ entity.id →
        (entity.index ≤ other.index ↔ column.index ≤ other.index) := by
  have table := (kept.same entity known column here id).1
  rw [List.map_inj_left]
  constructor
  · intro same other member apart
    obtain ⟨present, mine⟩ := List.mem_filter.1 member
    have mine : other.dataTableId = entity.dataTableId := of_decide_eq_true mine
    have equal := congrArg DataTableColumn.index (same other present)
    rw [index_moved _ (id ▸ apart) (mine.trans table.symm), index_moved _ apart mine] at equal
    exact ((Dense.shift_eq_iff _ _ _).1 (Dense.shift_injective _ equal)).symm
  · intro between c present
    by_cases self : c.id = entity.id
    · unfold moved
      rw [if_pos (by simpa using self.trans id.symm), if_pos (by simpa using self)]
      have fields : ∀ {x y : DataTableColumn}, x.id = y.id → x.dataTableId = y.dataTableId → x.name = y.name →
          ({ x with index := targetIndex } : DataTableColumn) = { y with index := targetIndex } := by
        rintro ⟨_, _, _, _⟩ ⟨_, _, _, _⟩ rfl rfl rfl
        rfl
      exact fields (by simp) (by simp) (by simp)
    · by_cases mine : c.dataTableId = entity.dataTableId
      · have still := between c (List.mem_filter.2 ⟨present, decide_eq_true mine⟩) self
        unfold moved
        have first : State.shifted column.dataTableId column.index (-1) c =
            State.shifted entity.dataTableId entity.index (-1) c := by
          unfold State.shifted
          rw [table]
          simp only [still]
        rw [first, table, if_neg (by simpa [id] using self), if_neg (by simpa using self)]
      · rw [moved_of_ne _ (id ▸ self) (table ▸ mine), moved_of_ne _ self mine]

def remaining (entity : DataTableColumn) (columns : List DataTableColumn) : List DataTableColumn :=
  (columns.filter (·.id ≠ entity.id)).map (State.shifted entity.dataTableId entity.index (-1))

def Droppable (setting : Setting) (s : State) (entity : DataTableColumn) : Prop :=
  ∃ names ∈ s.userTables.get entity.dataTableId, State.hasUserColumn setting names entity.name

def droppedTables (setting : Setting) (s : State) (dataTableId name : String) : OrderedMap String (List String) :=
  match s.userTables.get dataTableId with
  | some names => s.userTables.set dataTableId
      (names.filter fun other => setting.foldName other ≠ setting.foldName name)
  | none => s.userTables

theorem contains_droppedTables (setting : Setting) (s : State) (dataTableId name t : String) :
    (droppedTables setting s dataTableId name).contains t = s.userTables.contains t := by
  unfold droppedTables OrderedMap.contains
  split
  case h_1 names stored =>
    rw [OrderedMap.get_set]
    by_cases mine : t = dataTableId
    · rw [if_pos mine, mine, stored]
      rfl
    · rw [if_neg mine]
  case h_2 => rfl

theorem deleteColumn_eq (setting : Setting) (s : State) (entity : DataTableColumn) :
    (∃ failure, s.deleteColumn setting entity = .error failure) ∧ ¬Droppable setting s entity ∨
      Droppable setting s entity ∧ s.deleteColumn setting entity = .ok
        { s with
          columns := remaining entity s.columns
          userTables := droppedTables setting s entity.dataTableId entity.name } := by
  cases stored : s.userTables.get entity.dataTableId with
  | none =>
    refine .inl ⟨⟨.query, ?_⟩, fun droppable => ?_⟩
    · simp only [State.deleteColumn, State.dropColumnFromTable, State.removeColumn, stored]
      rfl
    · obtain ⟨names, found, _⟩ := droppable
      simp [stored] at found
  | some names =>
    cases has : State.hasUserColumn setting names entity.name with
    | false =>
      refine .inl ⟨⟨.query, ?_⟩, fun droppable => ?_⟩
      · simp only [State.deleteColumn, State.dropColumnFromTable, State.removeColumn, stored, has]
        rfl
      · obtain ⟨names', found, has'⟩ := droppable
        rw [stored] at found
        cases found
        rw [has] at has'
        cases has'
    | true =>
      refine .inr ⟨⟨names, stored, has⟩, ?_⟩
      simp only [State.deleteColumn, State.dropColumnFromTable, State.removeColumn, stored, has, droppedTables]
      rfl

theorem mem_remaining {entity c : DataTableColumn} {columns : List DataTableColumn}
    (member : c ∈ remaining entity columns) : ∃ d ∈ columns, d.id ≠ entity.id ∧
      c = State.shifted entity.dataTableId entity.index (-1) d := by
  obtain ⟨d, kept, rfl⟩ := List.mem_map.1 member
  obtain ⟨here, other⟩ := List.mem_filter.1 kept
  exact ⟨d, here, of_decide_eq_true other, rfl⟩

theorem ordered_delete (kept : Kept s) {column : DataTableColumn} (here : column ∈ s.columns)
    (userTables : OrderedMap String (List String)) :
    State.Ordered { s with columns := remaining column s.columns, userTables := userTables } := by
  intro t
  have columns : State.getColumns { s with columns := remaining column s.columns, userTables := userTables } t =
      ((s.getColumns t).filter (·.id ≠ column.id)).map (State.shifted column.dataTableId column.index (-1)) := by
    have stays := getColumns_map { s with columns := s.columns.filter (·.id ≠ column.id), userTables := userTables }
      (dataTableId_shifted column.dataTableId column.index (-1)) t
    refine stays.trans ?_
    unfold State.getColumns
    rw [List.filter_comm]
  rw [columns, List.map_map]
  by_cases mine : t = column.dataTableId
  · subst mine
    have perm := positions_perm kept here
    have before := (kept.ordered column.dataTableId).perm (perm.map (·.index))
    rw [List.map_cons] at before
    have closed := before.close
    rw [List.map_map] at closed
    refine closed.perm (List.Perm.of_eq (List.map_congr_left fun c member => ?_))
    have same : c.dataTableId = column.dataTableId :=
      of_decide_eq_true (List.mem_filter.1 (List.mem_filter.1 member).1).2
    simp only [Function.comp, index_shifted same]
  · have still : ((s.getColumns t).filter (·.id ≠ column.id)).map
        ((·.index) ∘ State.shifted column.dataTableId column.index (-1)) = (s.getColumns t).map (·.index) := by
      have all : (s.getColumns t).filter (·.id ≠ column.id) = s.getColumns t := by
        refine List.filter_eq_self.2 fun c member => ?_
        obtain ⟨present, table⟩ := List.mem_filter.1 member
        refine decide_eq_true fun id => mine ?_
        rw [← of_decide_eq_true table, kept.eq_of_id present here id]
      rw [all]
      refine List.map_congr_left fun c member => ?_
      have table : c.dataTableId = t := of_decide_eq_true (List.mem_filter.1 member).2
      simp only [Function.comp, shifted_of_ne (table ▸ mine)]
    rw [still]
    exact kept.ordered t

theorem delete_same_iff (kept : Kept s) {entity column : DataTableColumn} (known : entity ∈ s.entities)
    (here : column ∈ s.columns) (id : column.id = entity.id) :
    remaining column s.columns = remaining entity s.columns ↔
      ∀ other ∈ s.getColumns entity.dataTableId, other.id ≠ entity.id →
        (entity.index ≤ other.index ↔ column.index ≤ other.index) := by
  have table := (kept.same entity known column here id).1
  unfold remaining
  rw [id, table, List.map_inj_left]
  constructor
  · intro same other member apart
    obtain ⟨present, mine⟩ := List.mem_filter.1 member
    have mine : other.dataTableId = entity.dataTableId := of_decide_eq_true mine
    have equal := congrArg DataTableColumn.index
      (same other (List.mem_filter.2 ⟨present, decide_eq_true apart⟩))
    rw [index_shifted mine, index_shifted mine] at equal
    exact ((Dense.shift_eq_iff _ _ _).1 equal).symm
  · intro between c member
    obtain ⟨present, apart⟩ := List.mem_filter.1 member
    by_cases mine : c.dataTableId = entity.dataTableId
    · have still := between c (List.mem_filter.2 ⟨present, decide_eq_true mine⟩) (of_decide_eq_true apart)
      unfold State.shifted
      simp only [still]
    · rw [shifted_of_ne mine, shifted_of_ne mine]

def added (s : State) (dataTableId name : String) (index : ℚ) : List DataTableColumn :=
  (if index < ((s.getColumns dataTableId).length : ℚ) then s.columns.map (State.shifted dataTableId index 1)
    else s.columns) ++ [⟨s.nextId, dataTableId, name, index⟩]

theorem insertColumn_eq (s : State) (dataTableId name : String) (index : ℚ) :
    (if index < ((s.getColumns dataTableId).length : ℚ) then s.shiftColumns dataTableId index 1 else s).insertColumn
        dataTableId name index =
      { s with columns := added s dataTableId name index, nextId := s.nextId + 1 } := by
  unfold added State.insertColumn
  split <;> rfl

/-- A column is added where its name is accepted, its index is within the table, and the
database takes the index. -/
theorem addColumn_eq (setting : Setting) (s : State) (dataTableId name : String) (index : Option ℚ) :
    (∃ failure, s.addColumn setting dataTableId name index = .error failure) ∧
        ¬(s.acceptsName setting dataTableId name ∧ ∃ normal,
          State.normalizeAddColumnIndex index (s.getColumns dataTableId).length = .ok normal ∧
            (setting.integersOnly = true → normal.isInt)) ∨
      s.acceptsName setting dataTableId name ∧ ∃ normal names,
        State.normalizeAddColumnIndex index (s.getColumns dataTableId).length = .ok normal ∧
          (setting.integersOnly = true → normal.isInt) ∧
          s.addColumn setting dataTableId name index = .ok
            { s with
              columns := added s dataTableId name normal
              nextId := s.nextId + 1
              userTables := s.userTables.set dataTableId names } := by
  unfold State.acceptsName
  cases system : validateNotSystemColumn name with
  | error failure =>
    refine .inl ⟨⟨failure, ?_⟩, fun h => by cases h.1.1⟩
    rw [State.addColumn, system]
    rfl
  | ok =>
    cases unique : s.validateUniqueColumnName name dataTableId with
    | error failure =>
      refine .inl ⟨⟨failure, ?_⟩, fun h => by cases h.1.2.1⟩
      rw [State.addColumn, system, unique]
      rfl
    | ok =>
      cases normal : State.normalizeAddColumnIndex index (s.getColumns dataTableId).length with
      | error failure =>
        refine .inl ⟨⟨failure, ?_⟩, fun h => ?_⟩
        · rw [State.addColumn, system, unique]
          dsimp only
          rw [normal]
          rfl
        · obtain ⟨_, _, impossible, _⟩ := h
          cases impossible
      | ok position =>
        have start : s.addColumn setting dataTableId name index =
            if setting.integersOnly ∧ ¬position.isInt then .error .query
            else State.addUserColumn setting
              { s with columns := added s dataTableId name position, nextId := s.nextId + 1 } dataTableId name := by
          rw [State.addColumn, system, unique, ← insertColumn_eq]
          dsimp only [bind, Except.bind]
          rw [normal]
        by_cases refused : setting.integersOnly = true ∧ ¬position.isInt
        · refine .inl ⟨⟨.query, by rw [start, if_pos refused]⟩, fun h => ?_⟩
          obtain ⟨_, normal, same, taken⟩ := h
          cases same
          exact refused.2 (taken refused.1)
        · rw [start, if_neg refused, State.addUserColumn]
          by_cases valid : setting.validColumnName name
          · rw [if_neg (by simpa using valid)]
            cases stored : s.userTables.get dataTableId with
            | none =>
              refine .inl ⟨⟨.query, rfl⟩, fun h => ?_⟩
              obtain ⟨names, found, _⟩ := h.1.2.2.2
              cases found
            | some names =>
              dsimp only
              cases has : State.hasUserColumn setting names name with
              | true =>
                refine .inl ⟨⟨.query, rfl⟩, fun h => ?_⟩
                obtain ⟨names', found, free⟩ := h.1.2.2.2
                cases found
                rw [has] at free
                cases free
              | false =>
                refine .inr ⟨⟨rfl, rfl, valid, names, rfl, has⟩, position, names ++ [name], rfl, fun only => ?_, rfl⟩
                by_contra fraction
                exact refused ⟨only, fraction⟩
          · exact .inl ⟨⟨_, by rw [if_pos (by simpa using valid)]⟩, fun h => valid h.1.2.2.1⟩

theorem normalize_ok {index : Option ℚ} {count : Nat} {normal : ℚ}
    (ok : State.normalizeAddColumnIndex index count = .ok normal) :
    normal = count ∨ index = some normal ∧ 0 ≤ normal ∧ normal ≤ count := by
  unfold State.normalizeAddColumnIndex at ok
  split at ok
  case h_1 =>
    cases ok
    exact .inl rfl
  case h_2 given =>
    split at ok
    case isTrue =>
      cases ok
      exact .inl rfl
    case isFalse within =>
      split at ok
      case isTrue => cases ok
      case isFalse positive =>
        cases ok
        exact .inr ⟨rfl, not_lt.1 positive, not_lt.1 within⟩

theorem getColumns_added (s : State) (userTables : OrderedMap String (List String)) (dataTableId name t : String)
    (index : ℚ) :
    State.getColumns
        { s with columns := added s dataTableId name index, nextId := s.nextId + 1, userTables := userTables } t =
      (if index < ((s.getColumns dataTableId).length : ℚ) then
        (s.getColumns t).map (State.shifted dataTableId index 1) else s.getColumns t) ++
        if dataTableId = t then [⟨s.nextId, dataTableId, name, index⟩] else [] := by
  have last : List.filter (fun column : DataTableColumn => decide (column.dataTableId = t))
      [⟨s.nextId, dataTableId, name, index⟩] =
        if dataTableId = t then [⟨s.nextId, dataTableId, name, index⟩] else [] := by
    by_cases mine : dataTableId = t <;> simp [mine]
  change (added s dataTableId name index).filter _ = _
  rw [added, List.filter_append, last]
  congr 1
  by_cases inside : index < ((s.getColumns dataTableId).length : ℚ)
  · rw [if_pos inside, if_pos inside]
    exact getColumns_map s (dataTableId_shifted dataTableId index 1) t
  · rw [if_neg inside, if_neg inside]
    rfl

theorem ordered_add (kept : Kept s) (userTables : OrderedMap String (List String)) (dataTableId name : String)
    {index : Nat} (within : index ≤ (s.getColumns dataTableId).length) :
    State.Ordered
      { s with columns := added s dataTableId name index, nextId := s.nextId + 1, userTables := userTables } := by
  intro t
  rw [getColumns_added]
  by_cases mine : dataTableId = t
  · subst mine
    rw [if_pos rfl, List.map_append]
    refine Dense.perm ?_ (List.perm_append_singleton (index : ℚ) _).symm
    have before := kept.ordered dataTableId
    by_cases inside : (index : ℚ) < ((s.getColumns dataTableId).length : ℚ)
    · have opened := before.insert index (by rwa [List.length_map])
      rw [if_pos inside, List.map_map]
      refine opened.perm (List.Perm.cons _ (List.Perm.of_eq ?_))
      rw [List.map_map]
      refine List.map_congr_left fun c member => ?_
      have same : c.dataTableId = dataTableId := of_decide_eq_true (List.mem_filter.1 member).2
      simp only [Function.comp, index_shifted same]
    · have last : index = (s.getColumns dataTableId).length :=
        Nat.le_antisymm within (Nat.not_lt.1 fun below => inside (Nat.cast_lt.2 below))
      rw [if_neg inside]
      have appended := before.append
      rw [List.length_map, ← last] at appended
      exact appended
  · rw [if_neg mine, List.append_nil]
    split
    case isTrue =>
      have still : ((s.getColumns t).map (State.shifted dataTableId index 1)).map (·.index) =
          (s.getColumns t).map (·.index) := by
        rw [List.map_map]
        refine List.map_congr_left fun c member => ?_
        have table : c.dataTableId = t := of_decide_eq_true (List.mem_filter.1 member).2
        simp only [Function.comp, shifted_of_ne (table ▸ Ne.symm mine)]
      rw [still]
      exact kept.ordered t
    case isFalse => exact kept.ordered t

theorem not_ordered_add (userTables : OrderedMap String (List String)) (dataTableId name : String) {index : ℚ}
    (fraction : index.isInt = false) :
    ¬State.Ordered
      { s with columns := added s dataTableId name index, nextId := s.nextId + 1, userTables := userTables } := by
  intro ordered
  have dense := ordered dataTableId
  rw [getColumns_added, if_pos rfl, List.map_append] at dense
  obtain ⟨k, _, same⟩ := (dense.mem_iff index).1 (List.mem_append_right _ List.mem_cons_self)
  rw [same] at fraction
  cases fraction

theorem insertColumns_spec (dataTableId : String) (names : List String) (first : Nat) (s : State) :
    ∃ new, (names.zipIdx first).foldl (fun s column => s.insertColumn dataTableId column.1 (column.2 : ℚ)) s =
        { s with columns := s.columns ++ new, nextId := s.nextId + names.length } ∧
      new.map (·.id) = List.range' s.nextId names.length ∧ (∀ c ∈ new, c.dataTableId = dataTableId) ∧
      new.map (·.index) = (List.range' first names.length).map fun k : Nat => (k : ℚ) := by
  induction names generalizing first s with
  | nil => exact ⟨[], by simp, rfl, fun _ member => absurd member List.not_mem_nil, rfl⟩
  | cons name names ih =>
    obtain ⟨new, state, ids, tables, indices⟩ := ih (first + 1) (s.insertColumn dataTableId name first)
    refine ⟨⟨s.nextId, dataTableId, name, first⟩ :: new, ?_, ?_, fun c member => ?_, ?_⟩
    · rw [List.zipIdx_cons, List.foldl_cons, state]
      simp [State.insertColumn, Nat.add_assoc, Nat.add_comm 1]
    · rw [List.map_cons, ids, List.length_cons, List.range'_succ]
      rfl
    · cases List.mem_cons.1 member with
      | inl here => rw [here]
      | inr later => exact tables c later
    · rw [List.map_cons, indices, List.length_cons, List.range'_succ, List.map_cons]

theorem createDataTable_ok {dataTableId : String} {names : List String}
    (ok : s.createDataTable setting dataTableId names = .ok s') :
    s.userTables.contains dataTableId = false ∧ ∃ new,
      s' = { s with
        columns := s.columns ++ new
        nextId := s.nextId + names.length
        userTables := s.userTables.set dataTableId names } ∧
      new.map (·.id) = List.range' s.nextId names.length ∧ (∀ c ∈ new, c.dataTableId = dataTableId) ∧
      new.map (·.index) = (List.range' 0 names.length).map fun k : Nat => (k : ℚ) := by
  obtain ⟨new, state, parts⟩ := insertColumns_spec dataTableId names 0 s
  unfold State.createDataTable at ok
  by_cases valid : names.all setting.validColumnName = true
  · rw [if_neg (by simpa using valid)] at ok
    cases system : names.forM validateNotSystemColumn with
    | error failure =>
      rw [system] at ok
      cases ok
    | ok =>
      rw [system] at ok
      by_cases taken : s.userTables.contains dataTableId = true
      · rw [if_pos taken] at ok
        cases ok
      · rw [if_neg taken] at ok
        dsimp only [bind, Except.bind, pure, Except.pure] at ok
        rw [state] at ok
        by_cases distinct : (names.map setting.foldName).Nodup
        · rw [if_neg (by simpa using distinct)] at ok
          cases ok
          exact ⟨Bool.eq_false_iff.2 taken, new, rfl, parts⟩
        · rw [if_pos (by simpa using distinct)] at ok
          cases ok
  · rw [if_pos (by simpa using valid)] at ok
    cases ok

theorem Kept.of_columns (kept : Kept s) (ordered : s'.Ordered) (unique : (s'.columns.map (·.id)).Nodup)
    (columns : ∀ c ∈ s'.columns, c.id < s'.nextId ∧ s'.userTables.contains c.dataTableId ∧
      ((∃ d ∈ s.columns, c.id = d.id ∧ c.dataTableId = d.dataTableId ∧ c.name = d.name) ∨ s.nextId ≤ c.id))
    (entities : s'.entities = s.entities) (nextId : s.nextId ≤ s'.nextId) : Kept s' where
  unique := unique
  fresh c member := (columns c member).1
  known entity member := by
    rw [entities] at member
    exact Nat.lt_of_lt_of_le (kept.known entity member) nextId
  same entity member c here id := by
    rw [entities] at member
    cases (columns c here).2.2 with
    | inl old =>
      obtain ⟨d, there, same, table, name⟩ := old
      have agree := kept.same entity member d there (same.symm.trans id)
      exact ⟨table.trans agree.1, name.trans agree.2⟩
    | inr new =>
      have below := kept.known entity member
      omega
  tables c member := (columns c member).2.1
  ordered := ordered

theorem kept_move (kept : Kept s) (entity : DataTableColumn) (targetIndex : ℚ)
    (ordered : State.Ordered { s with columns := s.columns.map (moved entity targetIndex) }) :
    Kept { s with columns := s.columns.map (moved entity targetIndex) } := by
  refine kept.of_columns ordered ?_ (fun c member => ?_) rfl (Nat.le_refl _)
  · have ids : (s.columns.map (moved entity targetIndex)).map (·.id) = s.columns.map (·.id) := by
      rw [List.map_map]
      exact List.map_congr_left fun c _ => id_moved entity targetIndex c
    exact ids ▸ kept.unique
  · obtain ⟨d, here, rfl⟩ := List.mem_map.1 member
    rw [id_moved, dataTableId_moved, name_moved]
    exact ⟨kept.fresh d here, kept.tables d here, .inl ⟨d, here, rfl, rfl, rfl⟩⟩

theorem kept_delete (kept : Kept s) (entity : DataTableColumn) {userTables : OrderedMap String (List String)}
    (tables : ∀ t, userTables.contains t = s.userTables.contains t)
    (ordered : State.Ordered { s with columns := remaining entity s.columns, userTables := userTables }) :
    Kept { s with columns := remaining entity s.columns, userTables := userTables } := by
  refine kept.of_columns ordered ?_ (fun c member => ?_) rfl (Nat.le_refl _)
  · have ids : (remaining entity s.columns).map (·.id) = (s.columns.filter (·.id ≠ entity.id)).map (·.id) := by
      rw [remaining, List.map_map]
      exact List.map_congr_left fun c _ => id_shifted _ _ _ c
    exact ids ▸ kept.unique.sublist (List.filter_sublist.map _)
  · obtain ⟨d, here, _, rfl⟩ := mem_remaining member
    rw [id_shifted, dataTableId_shifted, name_shifted]
    exact ⟨kept.fresh d here, (tables _).trans (kept.tables d here), .inl ⟨d, here, rfl, rfl, rfl⟩⟩

theorem contains_set (userTables : OrderedMap String (List String)) (dataTableId : String) (names : List String)
    (t : String) : (userTables.set dataTableId names).contains t =
      (decide (t = dataTableId) || userTables.contains t) := by
  unfold OrderedMap.contains
  rw [OrderedMap.get_set]
  by_cases mine : t = dataTableId <;> simp [mine]

theorem kept_add (kept : Kept s) (dataTableId name : String) (index : ℚ) (names : List String)
    (ordered : State.Ordered
      { s with
        columns := added s dataTableId name index
        nextId := s.nextId + 1
        userTables := s.userTables.set dataTableId names }) :
    Kept
      { s with
        columns := added s dataTableId name index
        nextId := s.nextId + 1
        userTables := s.userTables.set dataTableId names } := by
  have old : ∀ c ∈ (if index < ((s.getColumns dataTableId).length : ℚ) then
      s.columns.map (State.shifted dataTableId index 1) else s.columns),
      ∃ d ∈ s.columns, c.id = d.id ∧ c.dataTableId = d.dataTableId ∧ c.name = d.name := by
    intro c member
    split at member
    case isTrue =>
      obtain ⟨d, here, rfl⟩ := List.mem_map.1 member
      exact ⟨d, here, id_shifted _ _ _ d, dataTableId_shifted _ _ _ d, name_shifted _ _ _ d⟩
    case isFalse => exact ⟨c, member, rfl, rfl, rfl⟩
  refine kept.of_columns ordered ?_ (fun c member => ?_) rfl (Nat.le_succ _)
  · have ids : (added s dataTableId name index).map (·.id) = s.columns.map (·.id) ++ [s.nextId] := by
      rw [added, List.map_append]
      congr 1
      split
      case isTrue =>
        rw [List.map_map]
        exact List.map_congr_left fun c _ => id_shifted _ _ _ c
      case isFalse => rfl
    rw [ids]
    refine List.nodup_append.2 ⟨kept.unique, List.nodup_singleton _, fun id member new single same => ?_⟩
    obtain ⟨c, here, rfl⟩ := List.mem_map.1 member
    have below := kept.fresh c here
    rw [same, List.mem_singleton.1 single] at below
    exact Nat.lt_irrefl _ below
  · rw [contains_set]
    cases List.mem_append.1 member with
    | inl before =>
      obtain ⟨d, here, id, table, name⟩ := old c before
      refine ⟨?_, ?_, .inl ⟨d, here, id, table, name⟩⟩
      · rw [id]
        exact Nat.lt_succ_of_lt (kept.fresh d here)
      · rw [table, kept.tables d here, Bool.or_true]
    | inr new =>
      rw [List.mem_singleton.1 new]
      exact ⟨Nat.lt_succ_self _, by simp, .inr (Nat.le_refl _)⟩

theorem kept_create (kept : Kept s) {dataTableId : String} {names : List String}
    (ok : s.createDataTable setting dataTableId names = .ok s') : Kept s' := by
  obtain ⟨unknown, new, rfl, ids, mine, indices⟩ := createDataTable_ok ok
  have none : ∀ c ∈ s.columns, c.dataTableId ≠ dataTableId := by
    intro c here table
    have known := kept.tables c here
    simp [table, unknown] at known
  have range : ∀ c ∈ new, s.nextId ≤ c.id ∧ c.id < s.nextId + names.length := by
    intro c member
    have here : c.id ∈ List.range' s.nextId names.length := ids ▸ List.mem_map_of_mem member
    simpa [List.mem_range'_1] using here
  refine kept.of_columns (fun t => ?_) ?_ (fun c member => ?_) rfl (Nat.le_add_right _ _)
  · by_cases same : t = dataTableId
    · subst same
      have columns : State.getColumns { s with
          columns := s.columns ++ new
          nextId := s.nextId + names.length
          userTables := s.userTables.set t names } t = new := by
        unfold State.getColumns
        rw [List.filter_append, List.filter_eq_nil_iff.2 fun c here => by simp [none c here],
          List.filter_eq_self.2 fun c here => decide_eq_true (mine c here), List.nil_append]
      rw [columns, indices, ← List.range_eq_range']
      unfold Dense
      rw [List.length_map, List.length_range]
    · have columns : State.getColumns { s with
          columns := s.columns ++ new
          nextId := s.nextId + names.length
          userTables := s.userTables.set dataTableId names } t = s.getColumns t := by
        have absent : new.filter (fun c => decide (c.dataTableId = t)) = [] :=
          List.filter_eq_nil_iff.2 fun c here => by simp [mine c here, Ne.symm same]
        unfold State.getColumns
        rw [List.filter_append, absent, List.append_nil]
      rw [columns]
      exact kept.ordered t
  · rw [List.map_append, ids]
    refine List.nodup_append.2 ⟨kept.unique, List.nodup_range' _, fun id member new' fresh same => ?_⟩
    obtain ⟨c, here, rfl⟩ := List.mem_map.1 member
    have below := kept.fresh c here
    have above := (List.mem_range'_1.1 fresh).1
    omega
  · rw [contains_set]
    cases List.mem_append.1 member with
    | inl before =>
      refine ⟨Nat.lt_of_lt_of_le (kept.fresh c before) (Nat.le_add_right _ _), ?_, .inl ⟨c, before, rfl, rfl, rfl⟩⟩
      rw [kept.tables c before, Bool.or_true]
    | inr added =>
      exact ⟨(range c added).2, by simp [mine c added], .inr (range c added).1⟩

theorem kept_read (kept : Kept s) (dataTableId : String) (columnId : Nat) :
    Kept (s.readColumn dataTableId columnId) := by
  unfold State.readColumn
  split
  case h_1 column found =>
    have here : column ∈ s.columns := List.mem_of_find?_eq_some found
    refine ⟨kept.unique, kept.fresh, fun entity member => ?_, fun entity member c there id => ?_, kept.tables,
      kept.ordered⟩
    · cases List.mem_append.1 member with
      | inl before => exact kept.known entity before
      | inr new =>
        rw [List.mem_singleton.1 new]
        exact kept.fresh column here
    · cases List.mem_append.1 member with
      | inl before => exact kept.same entity before c there id
      | inr new =>
        rw [List.mem_singleton.1 new] at id ⊢
        rw [kept.eq_of_id there here id]
        exact ⟨rfl, rfl⟩
  case h_2 => exact kept

theorem kept_next (kept : Kept s) {action : Action} (keeps : KeepsOrder setting s action) :
    Kept (s.next setting action) := by
  unfold State.next
  cases done : s.transaction setting action with
  | none =>
    cases action with
    | readColumn dataTableId columnId => exact kept_read kept dataTableId columnId
    | createDataTable | addColumn | moveColumn | deleteColumn => exact kept
  | some result =>
    cases result with
    | error failure => exact kept
    | ok s' =>
      change Kept s'
      have ordered := (keeps s' done).1
      cases action with
      | createDataTable dataTableId names => exact kept_create kept (Option.some.inj done)
      | addColumn dataTableId name index =>
        have ok : s.addColumn setting dataTableId name index = .ok s' := Option.some.inj done
        rcases addColumn_eq setting s dataTableId name index with ⟨⟨_, failed⟩, _⟩ | ⟨_, normal, names, _, _, added⟩
        · cases failed.symm.trans ok
        · cases added.symm.trans ok
          exact kept_add kept dataTableId name normal names ordered
      | readColumn => cases done
      | moveColumn request targetIndex =>
        obtain ⟨entity, _, ok⟩ := Option.map_eq_some_iff.1 done
        rcases moveColumn_eq s entity targetIndex with ⟨⟨_, failed⟩, _⟩ | ⟨moved, _⟩
        · cases failed.symm.trans ok
        · cases moved.symm.trans ok
          exact kept_move kept entity targetIndex ordered
      | deleteColumn request =>
        obtain ⟨entity, _, ok⟩ := Option.map_eq_some_iff.1 done
        rcases deleteColumn_eq setting s entity with ⟨⟨_, failed⟩, _⟩ | ⟨_, deleted⟩
        · cases failed.symm.trans ok
        · cases deleted.symm.trans ok
          exact kept_delete kept entity (contains_droppedTables setting s _ _) ordered

theorem moveColumn_keeps_iff (kept : Kept s) (request : Nat) (targetIndex : Int) :
    KeepsOrder setting s (.moveColumn request targetIndex) ↔ Orderly setting s (.moveColumn request targetIndex) := by
  constructor
  · intro keeps entity found low high
    rcases moveColumn_eq s entity targetIndex with ⟨_, outside⟩ | ⟨ok, _⟩
    · exact absurd ⟨low, high⟩ outside
    · have committed : s.transaction setting (.moveColumn request targetIndex) =
          some (.ok { s with columns := s.columns.map (moved entity targetIndex) }) := by
        rw [State.transaction, Option.mem_def.1 found, Option.map_some, ok]
      obtain ⟨column, here, id, same⟩ := (keeps _ committed).2 entity found
      refine ⟨column, here, id, ?_⟩
      refine (move_same_iff kept (List.mem_of_getElem? found) here id targetIndex).1 ?_
      rcases moveColumn_eq s column targetIndex with ⟨⟨_, failed⟩, _⟩ | ⟨now, _⟩
      · cases failed.symm.trans same
      · exact congrArg State.columns (Except.ok.inj (now.symm.trans same))
  · intro orderly s' committed
    obtain ⟨entity, found, ok⟩ := Option.map_eq_some_iff.1 committed
    have known := List.mem_of_getElem? found
    rcases moveColumn_eq s entity targetIndex with ⟨⟨_, failed⟩, _⟩ | ⟨done, low, high⟩
    · cases failed.symm.trans ok
    · cases done.symm.trans ok
      obtain ⟨column, here, id, between⟩ := orderly entity found low high
      have same := (move_same_iff kept known here id targetIndex).2 between
      have table := (kept.same entity known column here id).1
      rw [← table] at high
      rw [← same]
      refine ⟨ordered_move kept here low high, fun other found' => ?_⟩
      cases found.symm.trans found'
      refine ⟨column, here, id, ?_⟩
      rcases moveColumn_eq s column targetIndex with ⟨_, outside⟩ | ⟨now, _⟩
      · exact absurd ⟨low, high⟩ outside
      · exact now

theorem deleteColumn_keeps_iff (kept : Kept s) (request : Nat) :
    KeepsOrder setting s (.deleteColumn request) ↔ Orderly setting s (.deleteColumn request) := by
  constructor
  · intro keeps entity found droppable
    rcases deleteColumn_eq setting s entity with ⟨_, stays⟩ | ⟨_, ok⟩
    · exact absurd droppable stays
    · have committed : s.transaction setting (.deleteColumn request) = some (s.deleteColumn setting entity) := by
        rw [State.transaction, Option.mem_def.1 found, Option.map_some]
      rw [ok] at committed
      obtain ⟨column, here, id, same⟩ := (keeps _ committed).2 entity found
      refine ⟨column, here, id, ?_⟩
      refine (delete_same_iff kept (List.mem_of_getElem? found) here id).1 ?_
      rcases deleteColumn_eq setting s column with ⟨⟨_, failed⟩, _⟩ | ⟨_, now⟩
      · cases failed.symm.trans same
      · exact congrArg State.columns (Except.ok.inj (now.symm.trans same))
  · intro orderly s' committed
    obtain ⟨entity, found, ok⟩ := Option.map_eq_some_iff.1 committed
    have known := List.mem_of_getElem? found
    rcases deleteColumn_eq setting s entity with ⟨⟨_, failed⟩, _⟩ | ⟨droppable, done⟩
    · cases failed.symm.trans ok
    · cases done.symm.trans ok
      obtain ⟨column, here, id, between⟩ := orderly entity found droppable
      have same := (delete_same_iff kept known here id).2 between
      obtain ⟨table, name⟩ := kept.same entity known column here id
      rw [← same]
      refine ⟨ordered_delete kept here _, fun other found' => ?_⟩
      cases found.symm.trans found'
      refine ⟨column, here, id, ?_⟩
      rcases deleteColumn_eq setting s column with ⟨_, stays⟩ | ⟨_, now⟩
      · refine absurd ?_ stays
        unfold Droppable
        rwa [table, name]
      · rw [now, table, name]

theorem natural_of_isInt {index : ℚ} (low : 0 ≤ index) (integer : index.isInt) : ∃ k : Nat, index = k := by
  have whole : (index.num : ℚ) = index := Rat.den_eq_one_iff index |>.1 (beq_iff_eq.1 integer)
  obtain ⟨k, same⟩ := Int.eq_ofNat_of_zero_le (Rat.num_nonneg.2 low)
  refine ⟨k, ?_⟩
  rw [← whole, same, Int.cast_natCast]

theorem addColumn_keeps_iff (kept : Kept s) (dataTableId name : String) (index : Option ℚ) :
    KeepsOrder setting s (.addColumn dataTableId name index) ↔
      Orderly setting s (.addColumn dataTableId name index) := by
  have acts : ∀ result, ActsOnCurrent setting s (.addColumn dataTableId name index) result := fun _ => trivial
  constructor
  · intro keeps
    cases index with
    | none => trivial
    | some index =>
      intro low high stores accepted
      have normal : State.normalizeAddColumnIndex (some index) (s.getColumns dataTableId).length = .ok index := by
        rw [State.normalizeAddColumnIndex, if_neg (not_lt.2 high), if_neg (not_lt.2 low)]
      rcases addColumn_eq setting s dataTableId name (some index) with
        ⟨_, refused⟩ | ⟨_, position, names, within, _, ok⟩
      · exact absurd ⟨accepted, index, normal, fun only => by cases stores.symm.trans only⟩ refused
      · cases normal.symm.trans within
        by_contra fraction
        have ordered := (keeps _ (congrArg some ok)).1
        exact not_ordered_add (s.userTables.set dataTableId names) dataTableId name
          (Bool.eq_false_iff.2 fraction) ordered
  · intro orderly s' committed
    refine ⟨?_, acts _⟩
    have ok : s.addColumn setting dataTableId name index = .ok s' := Option.some.inj committed
    rcases addColumn_eq setting s dataTableId name index with
      ⟨⟨_, failed⟩, _⟩ | ⟨accepted, position, names, within, taken, done⟩
    · cases failed.symm.trans ok
    · cases done.symm.trans ok
      rcases normalize_ok within with rfl | ⟨rfl, low, high⟩
      · exact ordered_add kept _ dataTableId name (Nat.le_refl _)
      · have integer : position.isInt := by
          cases stores : setting.integersOnly with
          | true => exact taken stores
          | false => exact orderly low high stores accepted
        obtain ⟨k, rfl⟩ := natural_of_isInt low integer
        exact ordered_add kept _ dataTableId name (Nat.cast_le.1 high)

theorem keepsOrder_iff (kept : Kept s) (action : Action) : KeepsOrder setting s action ↔ Orderly setting s action := by
  cases action with
  | createDataTable dataTableId names =>
    refine iff_of_true (fun s' committed => ⟨?_, trivial⟩) trivial
    exact (kept_create kept (Option.some.inj committed)).ordered
  | addColumn dataTableId name index => exact addColumn_keeps_iff kept dataTableId name index
  | readColumn dataTableId columnId => exact iff_of_true (fun s' never => by cases never) trivial
  | moveColumn request targetIndex => exact moveColumn_keeps_iff kept request targetIndex
  | deleteColumn request => exact deleteColumn_keeps_iff kept request

/-- In a run from the empty database every committed transaction keeps the order of all tables
and acts on the current position of its column, if and only if every action meets the database
so that it can. -/
theorem along_keepsOrder_iff (setting : Setting) (actions : List Action) :
    Along (State.next setting) (KeepsOrder setting) {} actions ↔
      Along (State.next setting) (Orderly setting) {} actions :=
  along_iff (I := Kept) (W := fun _ _ => True) (fun _ action kept _ => keepsOrder_iff kept action)
    (fun _ _ kept _ keeps => kept_next kept keeps) kept_initial
    (along_of_forall (R := fun _ => True) fun _ _ => trivial)

/-- A database that keeps names apart, and takes integers only. -/
def strictSetting : Setting where
  foldName := id
  integersOnly := true
  validColumnName _ := true

/-- A column is moved to the front by one request, and then moved by another that has read it
before: the others are shifted from the position that it no longer has. -/
theorem not_along_keepsOrder_movedMeanwhile : ¬ Along (State.next strictSetting) (KeepsOrder strictSetting) {}
    [.createDataTable "table" ["a", "b", "c"], .readColumn "table" 2, .readColumn "table" 2, .moveColumn 0 0,
      .moveColumn 1 1] := by
  intro keeps
  obtain ⟨_, _, _, _, last, _⟩ := keeps
  have dense := ((last _ rfl).1 "table").nodup
  revert dense
  decide +kernel

end NodeAutomation.DataTables
