import SqlOutline.Json
import SqlOutline.Model.FileAnalysis

/-!
# The report as a document

Empty lists and absent options are left out; truth values are always written.

## Main definitions

* `FileAnalysis.document` — the report on a file as a JSON document.
-/

namespace SqlOutline

open Json

/-! ## Parts -/

def boolField (key : String) (b : Bool) : Option (String × Json) := field key (.bool b)

def textsField (key : String) (texts : List String) : Option (String × Json) :=
  listField key (texts.map .str)

def relationsDocument (relations : NameSet) : Json :=
  object [textsField "relations" relations.names]

def callsDocument (u : Usage) : Json :=
  object [textsField "functions" u.functions.names, textsField "procedures" u.procedures.names]

def relationsField (key : String) (relations : NameSet) : Option (String × Json) :=
  if relations.isEmpty then none else field key (relationsDocument relations)

def callsField (key : String) (u : Usage) : Option (String × Json) :=
  if u.functions.isEmpty && u.procedures.isEmpty then none else field key (callsDocument u)

def nameFields (key : String) (n : QualifiedName) : List (Option (String × Json)) :=
  [field key (.str n.name), optField "schema" n.schema]

/-! ## Objects -/

/-- A column as a document. -/
def Column.document (c : Column) : Json :=
  object [field "name" (.str c.name), optField "type" c.dataType, boolField "nullable" c.nullable,
    textsField "constraints" (c.labels.map (·.text))]

/-- A foreign key as a document. -/
def ForeignKey.document (k : ForeignKey) : Json :=
  object [optField "name" k.name, textsField "columns" k.columns,
    field "referencedTable" (.str k.referencedTable),
    textsField "referencedColumns" k.referencedColumns, optField "onDelete" k.onDelete,
    optField "onUpdate" k.onUpdate]

/-- A table as a document. -/
def Table.document (t : Table) : Json :=
  object (nameFields "tableName" t.name ++ [boolField "ifNotExists" t.ifNotExists,
    listField "columns" (t.columns.map (·.document)), textsField "primaryKeys" t.primaryKeys,
    listField "foreignKeys" (t.foreignKeys.map (·.document))])

/-- Changes of a table as a document. -/
def TableAlteration.document (a : TableAlteration) : Json :=
  object (nameFields "tableName" a.name ++ [field "operationType" (.str a.kind.text),
    listField "addedColumns" (a.addedColumns.map (·.document)),
    textsField "droppedColumns" a.droppedColumns, textsField "addedConstraints" a.addedConstraints,
    textsField "droppedConstraints" a.droppedConstraints])

/-- An index as a document. -/
def Index.document (i : Index) : Json :=
  object ([optField "indexName" i.name] ++ nameFields "tableName" i.table
    ++ [boolField "unique" i.unique, textsField "columns" i.columns])

/-- A parameter as a document. -/
def Parameter.document (p : Parameter) : Json :=
  object [optField "name" p.name, optField "type" p.dataType,
    optField "direction" (p.direction.map (·.text)), optField "default" p.default]

/-- A routine as a document. Whether it replaces another is told of those that are created. -/
def Routine.document (r : Routine) : Json :=
  let key := match r.kind with
    | .procedure => "procedureName"
    | .function => "functionName"
  object (nameFields key r.name ++ [if r.alter then none else boolField "orReplace" r.orReplace,
    listField "parameters" (r.parameters.map (·.document)), optField "returnType" r.returnType,
    relationsField "references" r.usage.relations, callsField "calls" r.usage])

/-- A trigger as a document. -/
def Trigger.document (t : Trigger) : Json :=
  object ([field "triggerName" (.str t.name)] ++ nameFields "tableName" t.table
    ++ [boolField "orReplace" t.orReplace, field "timing" (.str t.timing.text),
      textsField "events" t.events, relationsField "references" t.usage.relations,
      callsField "calls" t.usage])

/-- A removal as a document. -/
def Drop.document (d : Drop) : Json :=
  object ([field "objectType" (.str d.kind.text)] ++ nameFields "objectName" d.name
    ++ [boolField "ifExists" d.ifExists])

/-- An operation as a document. -/
def Operation.document : Operation → Json
  | .createTable t => t.document
  | .alterTable a => a.document
  | .createView orReplace v => object (nameFields "viewName" v.name
      ++ [boolField "orReplace" orReplace, relationsField "references" v.relations])
  | .alterView v =>
    object (nameFields "viewName" v.name ++ [relationsField "references" v.relations])
  | .createIndex i => i.document
  | .routine r => r.document
  | .createTrigger t => t.document
  | .drop d => d.document

/-! ## Files -/

def Category.key : Category → String
  | .createTable => "createTables"
  | .alterTable => "alterTables"
  | .createView => "createViews"
  | .alterView => "alterViews"
  | .createIndex => "createIndexes"
  | .createProcedure => "createProcedures"
  | .alterProcedure => "alterProcedures"
  | .createFunction => "createFunctions"
  | .alterFunction => "alterFunctions"
  | .createTrigger => "createTriggers"
  | .drop => "dropOperations"

/-- A report as a document. -/
def FileAnalysis.document (a : FileAnalysis) : Json :=
  let lists := Category.all.map fun c => listField c.key ((a.ofCategory c).map (·.document))
  object ([field "filePath" (.str a.path), field "language" (.str "sql")] ++ lists
    ++ [relationsField "topLevelReferences" a.topLevel.relations,
      callsField "topLevelCalls" a.topLevel])

end SqlOutline
