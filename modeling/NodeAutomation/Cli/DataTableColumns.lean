import Mathlib.Data.Rat.Cast.Order
import NodeAutomation.Lib.OrderedMap
import NodeAutomation.Lib.Runs

/-! The columns of data tables (`packages/cli/src/modules/data-table/data-table-column.repository.ts`):
their rows in the database, the columns of the user tables, and requests that read the entity
of a column before they run their transaction. -/

namespace NodeAutomation.DataTables

/-- What the database makes of names and numbers: names of table columns are the same when they
fold to the same name; an index that is no integer is refused where the column takes integers
only. Names are valid by `dataTableColumnNameSchema`. -/
structure Setting where
  foldName : String → String
  integersOnly : Bool
  validColumnName : String → Bool

structure DataTableColumn where
  id : Nat
  dataTableId : String
  name : String
  index : ℚ
  deriving DecidableEq

/-- The rows of all columns, the names of the columns of each user table, and the entities that
requests have read. -/
structure State where
  columns : List DataTableColumn := []
  nextId : Nat := 0
  userTables : OrderedMap String (List String) := ∅
  entities : List DataTableColumn := []
  deriving DecidableEq

inductive Failure where
  | systemColumnNameConflict (name : String)
  | columnNameConflict (name : String)
  | validation (message : String)
  | unexpected (message : String)
  | query
  deriving DecidableEq

def dataTableSystemColumns : List String := ["id", "createdAt", "updatedAt"]

def dataTableSystemTestingColumn : String := "dryRunState"

def dataTableColumnErrorMessage : String :=
  "Only alphabetical characters and non-leading numbers and underscores are allowed for column names, and the maximum length is 63 characters."

def toLowerCase (name : String) : List Char := name.toList.map Char.toLower

def validateNotSystemColumn (columnName : String) : Except Failure Unit :=
  let lowerName := toLowerCase columnName
  if dataTableSystemColumns.any fun sc => toLowerCase sc = lowerName then
    .error (.systemColumnNameConflict columnName)
  else if lowerName = toLowerCase dataTableSystemTestingColumn then .error (.systemColumnNameConflict columnName)
  else .ok ()

namespace State

def getColumns (s : State) (dataTableId : String) : List DataTableColumn :=
  s.columns.filter (·.dataTableId = dataTableId)

def validateUniqueColumnName (s : State) (columnName dataTableId : String) : Except Failure Unit :=
  if (s.getColumns dataTableId).any fun column => column.name = columnName then
    .error (.columnNameConflict columnName)
  else .ok ()

def hasUserColumn (setting : Setting) (names : List String) (columnName : String) : Bool :=
  (dataTableSystemColumns ++ names).any fun name => setting.foldName name = setting.foldName columnName

/-- `DataTableDDLService.addColumn` -/
def addUserColumn (setting : Setting) (s : State) (dataTableId columnName : String) : Except Failure State :=
  if ¬setting.validColumnName columnName then .error (.unexpected dataTableColumnErrorMessage)
  else
    match s.userTables.get dataTableId with
    | none => .error .query
    | some names =>
      if hasUserColumn setting names columnName then .error .query
      else .ok { s with userTables := s.userTables.set dataTableId (names ++ [columnName]) }

/-- `DataTableDDLService.dropColumnFromTable` -/
def dropColumnFromTable (setting : Setting) (s : State) (dataTableId columnName : String) : Except Failure State :=
  match s.userTables.get dataTableId with
  | none => .error .query
  | some names =>
    if hasUserColumn setting names columnName then
      .ok { s with
        userTables := s.userTables.set dataTableId
          (names.filter fun name => setting.foldName name ≠ setting.foldName columnName) }
    else .error .query

def shifted (dataTableId : String) (lowestIndex delta : ℚ) (column : DataTableColumn) : DataTableColumn :=
  if column.dataTableId = dataTableId ∧ lowestIndex ≤ column.index then
    { column with index := column.index + delta }
  else column

def shiftColumns (s : State) (dataTableId : String) (lowestIndex delta : ℚ) : State :=
  { s with columns := s.columns.map (shifted dataTableId lowestIndex delta) }

def normalizeAddColumnIndex (index : Option ℚ) (currentColumnCount : Nat) : Except Failure ℚ :=
  match index with
  | none => .ok currentColumnCount
  | some index =>
    if (currentColumnCount : ℚ) < index then .ok currentColumnCount
    else if index < 0 then .error (.validation "tried to add column at a negative index")
    else .ok index

def insertColumn (s : State) (dataTableId name : String) (index : ℚ) : State :=
  { s with columns := s.columns ++ [⟨s.nextId, dataTableId, name, index⟩], nextId := s.nextId + 1 }

def addColumn (setting : Setting) (s : State) (dataTableId name : String) (index : Option ℚ) :
    Except Failure State := do
  validateNotSystemColumn name
  s.validateUniqueColumnName name dataTableId
  let columnCount := (s.getColumns dataTableId).length
  let index ← normalizeAddColumnIndex index columnCount
  if setting.integersOnly ∧ ¬index.isInt then .error .query
  let s := if index < columnCount then s.shiftColumns dataTableId index 1 else s
  (s.insertColumn dataTableId name index).addUserColumn setting dataTableId name

/-- The row goes, if it is there. -/
def removeColumn (s : State) (column : DataTableColumn) : State :=
  { s with columns := s.columns.filter (·.id ≠ column.id) }

def deleteColumn (setting : Setting) (s : State) (column : DataTableColumn) : Except Failure State := do
  let s ← (s.removeColumn column).dropColumnFromTable setting column.dataTableId column.name
  pure (s.shiftColumns column.dataTableId column.index (-1))

/-- The row changes, if it is there. -/
def updateIndex (s : State) (id : Nat) (index : ℚ) : State :=
  { s with columns := s.columns.map fun column => if column.id = id then { column with index } else column }

def moveColumn (s : State) (column : DataTableColumn) (targetIndex : Int) : Except Failure State := do
  let columnCount := (s.getColumns column.dataTableId).length
  if targetIndex < 0 then .error (.validation "tried to move column to negative index")
  if columnCount ≤ targetIndex then
    .error (.validation "tried to move column to an index larger than column count")
  let s := s.shiftColumns column.dataTableId column.index (-1)
  let s := s.shiftColumns column.dataTableId targetIndex 1
  pure (s.updateIndex column.id targetIndex)

/-- `createDataTable`: a table with a new id, its columns in the order of the request. -/
def createDataTable (setting : Setting) (s : State) (dataTableId : String) (names : List String) :
    Except Failure State := do
  if ¬names.all setting.validColumnName then .error (.validation dataTableColumnErrorMessage)
  names.forM validateNotSystemColumn
  if s.userTables.contains dataTableId then .error .query
  let s := names.zipIdx.foldl (fun s column => s.insertColumn dataTableId column.1 column.2) s
  if ¬(names.map setting.foldName).Nodup then .error .query
  pure { s with userTables := s.userTables.set dataTableId names }

/-- `validateColumnExists`: the entity is read, and kept by the request. -/
def readColumn (s : State) (dataTableId : String) (columnId : Nat) : State :=
  match s.columns.find? fun column => column.id = columnId ∧ column.dataTableId = dataTableId with
  | some column => { s with entities := s.entities ++ [column] }
  | none => s

def commit (s : State) (result : Except Failure State) : State :=
  match result with
  | .ok s => s
  | .error _ => s

end State

/-- Requests for a column are known by the numbers of the entities that they have read. -/
inductive Action where
  | createDataTable (dataTableId : String) (names : List String)
  | addColumn (dataTableId name : String) (index : Option ℚ)
  | readColumn (dataTableId : String) (columnId : Nat)
  | moveColumn (request : Nat) (targetIndex : Int)
  | deleteColumn (request : Nat)
  deriving DecidableEq

def State.transaction (setting : Setting) (s : State) : Action → Option (Except Failure State)
  | .createDataTable dataTableId names => some (s.createDataTable setting dataTableId names)
  | .addColumn dataTableId name index => some (s.addColumn setting dataTableId name index)
  | .readColumn _ _ => none
  | .moveColumn request targetIndex => s.entities[request]?.map fun column => s.moveColumn column targetIndex
  | .deleteColumn request => s.entities[request]?.map fun column => s.deleteColumn setting column

def State.next (setting : Setting) (s : State) (action : Action) : State :=
  match s.transaction setting action with
  | some result => s.commit result
  | none =>
    match action with
    | .readColumn dataTableId columnId => s.readColumn dataTableId columnId
    | _ => s

end NodeAutomation.DataTables
