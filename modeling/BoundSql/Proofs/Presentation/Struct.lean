import BoundSql.Proofs.Presentation.Record
import BoundSql.Proofs.Reload.Loaded

/-!
# The records of documents

Every part of a statement that has names in a document is a record of the fields listed here, in
this order: the columns, the clauses and the statements themselves, and the content of most
alternatives. The content of the other alternatives is another such part.
-/
namespace BoundSql

open Json

/-! ## Fields -/

def ColumnName.fields : List Field := [.required "name" string?, .optional "table_alias" string?]

def RawSql.fields : List Field :=
  [.required "query" string?, .defaulted "bindings" [] (list? Value.ofJson?)]

def Join.tableFields : List Field :=
  [.required "method" JoinKind.ofJson?, .required "table" string?, .optional "alias" string?,
    .required "primary_key" ColumnName.ofJson?, .required "foreign_key" ColumnName.ofJson?]

def Join.rawFields : List Field :=
  [.required "method" JoinKind.ofJson?, .required "query" RawSql.ofJson?]

def SortKey.fields : List Field :=
  [.required "column" string?, .defaulted "order" .asc Direction.ofJson?]

def Limits.fields : List Field := [.defaulted "limit" 0 uint64?, .defaulted "offset" 0 uint64?]

def Recursion.fields : List Field :=
  [.required "recursive_key" string?, .required "anchor_key" string?]

namespace Expr

def columnFields : List Field :=
  [.required "column" ColumnName.ofJson?, .optional "alias" string?]

def aggregateFields : List Field :=
  [.required "method" Aggregate.ofJson?, .required "column" ColumnName.ofJson?,
    .optional "alias" string?]

def datePartFields : List Field :=
  [.required "wrap" DatePart.ofJson?, .required "column" ColumnName.ofJson?,
    .optional "alias" string?]

def comparisonFields : List Field :=
  [.required "column" ColumnName.ofJson?, .required "op" Operator.ofJson?,
    .defaulted "value" .null Value.ofJson?]

def betweenFields : List Field :=
  [.required "column" ColumnName.ofJson?, .required "low" Value.ofJson?,
    .required "high" Value.ofJson?, .defaulted "negated" false bool?]

def oneOfFields : List Field :=
  [.required "column" ColumnName.ofJson?, .required "values" (list? Value.ofJson?),
    .defaulted "negated" false bool?]

def existenceFields : List Field :=
  [.required "query" Select.ofJson?, .defaulted "negated" false bool?]

end Expr

def Filter.fields : List Field :=
  [.defaulted "statements" [] (list? Expr.ofJson?), .defaulted "op" .and Connective.ofJson?]

def Select.fields : List Field :=
  [.optional "table" string?, .optional "schema" string?, .optional "table_alias" string?,
    .defaulted "distinct" false bool?, .defaulted "columns" [] (list? Expr.ofJson?),
    .defaulted "where" .empty Filter.ofJson?, .defaulted "joins" [] (list? Join.ofJson?),
    .defaulted "group_by" [] (list? Grouping.ofJson?), .optional "sort" SortKey.ofJson?,
    .defaulted "limits" .none Limits.ofJson?, .optional "recursive" Recursion.ofJson?]

def Row.documentFields : List Field :=
  [.required "fields" (list? (pair? string? Cell.ofJson?))]

def Refresh.listFields : List Field := [.required "columns" (list? Refresh.ofJson?)]

def Insert.fields : List Field :=
  [.optional "table" string?, .optional "schema" string?,
    .defaulted "rows" [] (list? Row.ofJson?), .defaulted "ignore" false bool?,
    .optional "on_duplicate" Refresh.listOfJson?]

def Update.fields : List Field :=
  [.optional "table" string?, .optional "schema" string?, .optional "table_alias" string?,
    .defaulted "values" [] (list? (pair? string? Value.ofJson?)),
    .defaulted "where" .empty Filter.ofJson?]

def Delete.fields : List Field :=
  [.optional "table" string?, .optional "schema" string?, .optional "table_alias" string?,
    .defaulted "where" .empty Filter.ofJson?, .defaulted "limits" .none Limits.ofJson?,
    .defaulted "truncate" false bool?]

def Column.fields : List Field :=
  [.required "name" string?, .required "type" ColumnType.ofJson?,
    .defaulted "args" [] (list? uint32?), .defaulted "values" [] (list? string?),
    .defaulted "unsigned" false bool?, .defaulted "not_null" false bool?,
    .defaulted "primary_key" false bool?, .defaulted "auto_increment" false bool?,
    .optional "default" ColumnDefault.ofJson?, .optional "charset" string?,
    .optional "collation" string?, .optional "comment" string?]

def ForeignKey.fields : List Field :=
  [.required "column" string?, .required "referenced_table" string?,
    .required "referenced_column" string?,
    .defaulted "on_delete" .noAction ReferentialAction.ofJson?,
    .defaulted "on_update" .noAction ReferentialAction.ofJson?]

def CreateTable.fields : List Field :=
  [.optional "table" string?, .optional "schema" string?,
    .defaulted "columns" [] (list? Column.ofJson?),
    .defaulted "foreign_keys" [] (list? ForeignKey.ofJson?)]

def CreateIndex.fields : List Field :=
  [.optional "table" string?, .optional "schema" string?, .defaulted "name" "" string?,
    .defaulted "unique" false bool?, .defaulted "columns" [] (list? string?)]

/-! ## Decoders -/

/-- Reads what stands in an alternative. -/
def Json.content {α : Type} (decode : Json → Option α) (name : String) (part : Json) : Option α :=
  decode (.object [(name, part)])

/-- The decoders of records. -/
inductive IsRecord : {α : Type} → (Json → Option α) → List Field → Prop
  | columnName : IsRecord ColumnName.ofJson? ColumnName.fields
  | rawSql : IsRecord RawSql.ofJson? RawSql.fields
  | joinTable : IsRecord (content Join.ofJson? "table") Join.tableFields
  | joinRaw : IsRecord (content Join.ofJson? "raw") Join.rawFields
  | sortKey : IsRecord SortKey.ofJson? SortKey.fields
  | limits : IsRecord Limits.ofJson? Limits.fields
  | recursion : IsRecord Recursion.ofJson? Recursion.fields
  | column : IsRecord (content Expr.ofJson? "column") Expr.columnFields
  | aggregate : IsRecord (content Expr.ofJson? "column_method") Expr.aggregateFields
  | datePart : IsRecord (content Expr.ofJson? "date_wrap") Expr.datePartFields
  | comparison : IsRecord (content Expr.ofJson? "comparison") Expr.comparisonFields
  | between : IsRecord (content Expr.ofJson? "between") Expr.betweenFields
  | oneOf : IsRecord (content Expr.ofJson? "in") Expr.oneOfFields
  | existence : IsRecord (content Expr.ofJson? "exists") Expr.existenceFields
  | filter : IsRecord Filter.ofJson? Filter.fields
  | select : IsRecord Select.ofJson? Select.fields
  | row : IsRecord Row.ofJson? Row.documentFields
  | onDuplicate : IsRecord Refresh.listOfJson? Refresh.listFields
  | insert : IsRecord Insert.ofJson? Insert.fields
  | update : IsRecord Update.ofJson? Update.fields
  | delete : IsRecord Delete.ofJson? Delete.fields
  | columnDefinition : IsRecord Column.ofJson? Column.fields
  | foreignKey : IsRecord ForeignKey.ofJson? ForeignKey.fields
  | createTable : IsRecord CreateTable.ofJson? CreateTable.fields
  | createIndex : IsRecord CreateIndex.ofJson? CreateIndex.fields

/-- The alternatives whose content is read by another decoder. -/
inductive IsWrapped : {α β : Type} → (Json → Option α) → (Json → Option β) → Prop
  | select : IsWrapped (content Query.ofJson? "select") Select.ofJson?
  | insert : IsWrapped (content Query.ofJson? "insert") Insert.ofJson?
  | update : IsWrapped (content Query.ofJson? "update") Update.ofJson?
  | delete : IsWrapped (content Query.ofJson? "delete") Delete.ofJson?
  | createTable : IsWrapped (content Query.ofJson? "create_table") CreateTable.ofJson?
  | createIndex : IsWrapped (content Query.ofJson? "create_index") CreateIndex.ofJson?
  | raw : IsWrapped (content Expr.ofJson? "raw") RawSql.ofJson?
  | rawColumn : IsWrapped (content Expr.ofJson? "column_raw") RawSql.ofJson?
  | group : IsWrapped (content Expr.ofJson? "nested_where") Filter.ofJson?
  | groupingColumn : IsWrapped (content Grouping.ofJson? "column") ColumnName.ofJson?
  | groupingRaw : IsWrapped (content Grouping.ofJson? "raw") RawSql.ofJson?
  | cell : IsWrapped (content Cell.ofJson? "value") Value.ofJson?
  | refreshRaw : IsWrapped (content Refresh.ofJson? "raw") RawSql.ofJson?
  | defaultRaw : IsWrapped (content ColumnDefault.ofJson? "raw") RawSql.ofJson?

/-! ## Lists -/

theorem Value.ofJsons?_eq_mapM (items : List Json) : ofJsons? items = items.mapM ofJson? := by
  induction items with
  | nil => rfl
  | cons j rest ih => rw [ofJsons?, ih, List.mapM_cons]

theorem Value.listOfJson?_eq_list? : Value.listOfJson? = list? Value.ofJson? := by
  funext j
  cases j with
  | array items => exact ofJsons?_eq_mapM items
  | _ => rfl

theorem Expr.listOfJson?_eq_list? : Expr.listOfJson? = list? Expr.ofJson? := by
  funext j
  cases j with
  | array items => exact Expr.listOfJson?_array items
  | _ =>
    rw [Expr.listOfJson?]
    rfl

/-! ## Records

Each decoder makes a record of the entries for its fields, as its constructor takes them. -/

theorem ColumnName.ofJson?_eq_record (j : Json) : ofJson? j = record fields mk j := by
  apply eq_record ["name", "table_alias"] rfl
  · intro h
    rw [ofJson?, h]
  · intro name qualifier h
    rw [ofJson?, h]
    simp only [List.map, fields, assemble, Field.read_required, Field.read_optional]
    rfl

theorem RawSql.ofJson?_eq_record (j : Json) : ofJson? j = record fields mk j := by
  apply eq_record ["query", "bindings"] rfl
  · intro h
    rw [ofJson?, h]
  · intro text bindings h
    rw [ofJson?, h, Value.listOfJson?_eq_list?]
    simp only [List.map, fields, assemble, Field.read_required, Field.read_defaulted]
    rfl

theorem Join.content_table (part : Json) :
    content ofJson? "table" part = record tableFields Join.table part := by
  apply eq_record ["method", "table", "alias", "primary_key", "foreign_key"] rfl
  · intro h
    rw [content, ofJson?, variant?]
    simp only [h]
  · intro kind joined tableAlias primaryKey foreignKey h
    rw [content, ofJson?, variant?]
    simp only [h, List.map, tableFields, assemble, Field.read_required, Field.read_optional]
    rfl

theorem Join.content_raw (part : Json) :
    content ofJson? "raw" part = record rawFields Join.raw part := by
  apply eq_record ["method", "query"] rfl
  · intro h
    rw [content, ofJson?, variant?]
    simp only [h]
  · intro kind sql h
    rw [content, ofJson?, variant?]
    simp only [h, List.map, rawFields, assemble, Field.read_required]
    rfl

theorem SortKey.ofJson?_eq_record (j : Json) : ofJson? j = record fields mk j := by
  apply eq_record ["column", "order"] rfl
  · intro h
    rw [ofJson?, h]
  · intro column direction h
    rw [ofJson?, h]
    simp only [List.map, fields, assemble, Field.read_required, Field.read_defaulted]
    rfl

theorem Limits.ofJson?_eq_record (j : Json) : ofJson? j = record fields mk j := by
  apply eq_record ["limit", "offset"] rfl
  · intro h
    rw [ofJson?, h]
  · intro limit offset h
    rw [ofJson?, h]
    simp only [List.map, fields, assemble, Field.read_defaulted]
    rfl

theorem Recursion.ofJson?_eq_record (j : Json) : ofJson? j = record fields mk j := by
  apply eq_record ["recursive_key", "anchor_key"] rfl
  · intro h
    rw [ofJson?, h]
  · intro recursiveKey anchorKey h
    rw [ofJson?, h]
    simp only [List.map, fields, assemble, Field.read_required]
    rfl

theorem Expr.content_column (part : Json) :
    content ofJson? "column" part = record columnFields Expr.column part := by
  apply eq_record ["column", "alias"] rfl
  · intro h
    rw [content, ofJson?, variant?]
    simp only [h]
  · intro c label h
    rw [content, ofJson?, variant?]
    simp only [h, List.map, columnFields, assemble, Field.read_required, Field.read_optional]
    rfl

theorem Expr.content_aggregate (part : Json) :
    content ofJson? "column_method" part = record aggregateFields Expr.aggregate part := by
  apply eq_record ["method", "column", "alias"] rfl
  · intro h
    rw [content, ofJson?, variant?]
    simp only [h]
  · intro function c label h
    rw [content, ofJson?, variant?]
    simp only [h, List.map, aggregateFields, assemble, Field.read_required, Field.read_optional]
    rfl

theorem Expr.content_datePart (part : Json) :
    content ofJson? "date_wrap" part = record datePartFields Expr.datePart part := by
  apply eq_record ["wrap", "column", "alias"] rfl
  · intro h
    rw [content, ofJson?, variant?]
    simp only [h]
  · intro wrap c label h
    rw [content, ofJson?, variant?]
    simp only [h, List.map, datePartFields, assemble, Field.read_required, Field.read_optional]
    rfl

theorem Expr.content_comparison (part : Json) :
    content ofJson? "comparison" part = record comparisonFields Expr.comparison part := by
  apply eq_record ["column", "op", "value"] rfl
  · intro h
    rw [content, ofJson?, variant?]
    simp only [h]
  · intro c op value h
    rw [content, ofJson?, variant?]
    simp only [h, List.map, comparisonFields, assemble, Field.read_required, Field.read_defaulted]
    rfl

theorem Expr.content_between (part : Json) :
    content ofJson? "between" part = record betweenFields Expr.between part := by
  apply eq_record ["column", "low", "high", "negated"] rfl
  · intro h
    rw [content, ofJson?, variant?]
    simp only [h]
  · intro c low high negated h
    rw [content, ofJson?, variant?]
    simp only [h, List.map, betweenFields, assemble, Field.read_required, Field.read_defaulted]
    rfl

theorem Expr.content_oneOf (part : Json) :
    content ofJson? "in" part = record oneOfFields Expr.oneOf part := by
  apply eq_record ["column", "values", "negated"] rfl
  · intro h
    rw [content, ofJson?, variant?]
    simp only [h]
  · intro c values negated h
    rw [content, ofJson?, variant?, Value.listOfJson?_eq_list?]
    simp only [h, List.map, oneOfFields, assemble, Field.read_required, Field.read_defaulted]
    rfl

theorem Expr.content_existence (part : Json) :
    content ofJson? "exists" part = record existenceFields Expr.existence part := by
  apply eq_record ["query", "negated"] rfl
  · intro h
    rw [content, ofJson?, variant?]
    simp only [h]
  · intro query negated h
    rw [content, ofJson?, variant?]
    simp only [h, List.map, existenceFields, assemble, Field.read_required, Field.read_defaulted]
    cases query <;> rfl

theorem Filter.ofJson?_eq_record (j : Json) : ofJson? j = record fields mk j := by
  apply eq_record ["statements", "op"] rfl
  · intro h
    rw [ofJson?, h]
  · intro terms connective h
    rw [ofJson?_of_fields h, Expr.listOfJson?_eq_list?]
    simp only [List.map, fields, assemble, Field.read_defaulted]
    rfl

theorem Select.ofJson?_eq_record (j : Json) : ofJson? j = record fields mk j := by
  apply eq_record ["table", "schema", "table_alias", "distinct", "columns", "where", "joins",
    "group_by", "sort", "limits", "recursive"] rfl
  · intro h
    rw [ofJson?, h]
  · intro table schema tableAlias distinct columns filter joins groups sort limits recursion h
    rw [ofJson?_of_fields h, Expr.listOfJson?_eq_list?]
    simp only [List.map, fields, assemble, Field.read_defaulted, Field.read_optional]
    -- The parts that hold expressions are decoded first; nothing is made without them.
    dsimp only [Field.optional, Field.defaulted]
    cases Json.defaulted [] (list? Expr.ofJson?) columns with
    | none => simp only [Option.bind_eq_bind, Option.bind_none, Option.bind_fun_none]
    | some columns =>
      cases Json.defaulted .empty Filter.ofJson? filter with
      | none => simp only [Option.bind_eq_bind, Option.bind_none, Option.bind_fun_none]
      | some filter => rfl

theorem Row.ofJson?_eq_record (j : Json) : ofJson? j = record documentFields mk j := by
  apply eq_record ["fields"] rfl
  · intro h
    rw [ofJson?, h]
  · intro fields h
    rw [ofJson?, h]
    simp only [List.map, documentFields, assemble, Field.read_required]
    exact Option.map_eq_bind

theorem Refresh.listOfJson?_eq_record (j : Json) : listOfJson? j = record listFields id j := by
  apply eq_record ["columns"] rfl
  · intro h
    rw [listOfJson?, h]
  · intro items h
    rw [listOfJson?, h]
    simp only [List.map, listFields, assemble, Field.read_required]
    exact (Option.bind_fun_some _).symm

theorem Insert.ofJson?_eq_record (j : Json) : ofJson? j = record fields mk j := by
  apply eq_record ["table", "schema", "rows", "ignore", "on_duplicate"] rfl
  · intro h
    rw [ofJson?, h]
  · intro table schema rows ignore onDuplicate h
    rw [ofJson?, h]
    simp only [List.map, fields, assemble, Field.read_defaulted, Field.read_optional]
    rfl

theorem Update.ofJson?_eq_record (j : Json) : ofJson? j = record fields mk j := by
  apply eq_record ["table", "schema", "table_alias", "values", "where"] rfl
  · intro h
    rw [ofJson?, h]
  · intro table schema tableAlias assignments filter h
    rw [ofJson?, h]
    simp only [List.map, fields, assemble, Field.read_defaulted, Field.read_optional]
    rfl

theorem Delete.ofJson?_eq_record (j : Json) : ofJson? j = record fields mk j := by
  apply eq_record ["table", "schema", "table_alias", "where", "limits", "truncate"] rfl
  · intro h
    rw [ofJson?, h]
  · intro table schema tableAlias filter limits truncate h
    rw [ofJson?, h]
    simp only [List.map, fields, assemble, Field.read_defaulted, Field.read_optional]
    rfl

theorem Column.ofJson?_eq_record (j : Json) : ofJson? j = record fields mk j := by
  apply eq_record ["name", "type", "args", "values", "unsigned", "not_null", "primary_key",
    "auto_increment", "default", "charset", "collation", "comment"] rfl
  · intro h
    rw [ofJson?, h]
  · intro name type args members unsigned notNull primaryKey autoIncrement default charset collation
      comment h
    rw [ofJson?, h]
    simp only [List.map, fields, assemble, Field.read_required, Field.read_defaulted,
      Field.read_optional]
    rfl

theorem ForeignKey.ofJson?_eq_record (j : Json) : ofJson? j = record fields mk j := by
  apply eq_record ["column", "referenced_table", "referenced_column", "on_delete", "on_update"] rfl
  · intro h
    rw [ofJson?, h]
  · intro column referencedTable referencedColumn onDelete onUpdate h
    rw [ofJson?, h]
    simp only [List.map, fields, assemble, Field.read_required, Field.read_defaulted]
    rfl

theorem CreateTable.ofJson?_eq_record (j : Json) : ofJson? j = record fields mk j := by
  apply eq_record ["table", "schema", "columns", "foreign_keys"] rfl
  · intro h
    rw [ofJson?, h]
  · intro table schema columns foreignKeys h
    rw [ofJson?, h]
    simp only [List.map, fields, assemble, Field.read_defaulted, Field.read_optional]
    rfl

theorem CreateIndex.ofJson?_eq_record (j : Json) : ofJson? j = record fields mk j := by
  apply eq_record ["table", "schema", "name", "unique", "columns"] rfl
  · intro h
    rw [ofJson?, h]
  · intro table schema name unique columns h
    rw [ofJson?, h]
    simp only [List.map, fields, assemble, Field.read_defaulted, Field.read_optional]
    rfl

/-! ## Alternatives -/

theorem Expr.content_raw (part : Json) :
    content ofJson? "raw" part = (RawSql.ofJson? part).map .raw := by
  rw [content, ofJson?]
  rfl

theorem Expr.content_rawColumn (part : Json) :
    content ofJson? "column_raw" part = (RawSql.ofJson? part).map .rawColumn := by
  rw [content, ofJson?]
  rfl

theorem Expr.content_group (part : Json) :
    content ofJson? "nested_where" part = (Filter.ofJson? part).map .group := by
  rw [content, ofJson?]
  rfl

theorem Cell.content_value (part : Json) :
    content ofJson? "value" part = (Value.ofJson? part).map .value := by
  have htag : tag? (.object [("value", part)]) ≠ some "default" := by
    cases part <;> simp [tag?]
  exact if_neg htag

/-! ## All of them -/

/-- No record has two fields of one name. -/
theorem IsRecord.nodup {α : Type} {decode : Json → Option α} {fields : List Field}
    (h : IsRecord decode fields) : (fields.map Field.name).Nodup := by
  cases h <;> decide

/-- What the table says of a decoder holds. -/
theorem IsRecord.exists_make {α : Type} {decode : Json → Option α} {fields : List Field}
    (h : IsRecord decode fields) : ∃ make, ∀ j, decode j = record fields make j := by
  cases h with
  | columnName => exact ⟨_, ColumnName.ofJson?_eq_record⟩
  | rawSql => exact ⟨_, RawSql.ofJson?_eq_record⟩
  | joinTable => exact ⟨_, Join.content_table⟩
  | joinRaw => exact ⟨_, Join.content_raw⟩
  | sortKey => exact ⟨_, SortKey.ofJson?_eq_record⟩
  | limits => exact ⟨_, Limits.ofJson?_eq_record⟩
  | recursion => exact ⟨_, Recursion.ofJson?_eq_record⟩
  | column => exact ⟨_, Expr.content_column⟩
  | aggregate => exact ⟨_, Expr.content_aggregate⟩
  | datePart => exact ⟨_, Expr.content_datePart⟩
  | comparison => exact ⟨_, Expr.content_comparison⟩
  | between => exact ⟨_, Expr.content_between⟩
  | oneOf => exact ⟨_, Expr.content_oneOf⟩
  | existence => exact ⟨_, Expr.content_existence⟩
  | filter => exact ⟨_, Filter.ofJson?_eq_record⟩
  | select => exact ⟨_, Select.ofJson?_eq_record⟩
  | row => exact ⟨_, Row.ofJson?_eq_record⟩
  | onDuplicate => exact ⟨_, Refresh.listOfJson?_eq_record⟩
  | insert => exact ⟨_, Insert.ofJson?_eq_record⟩
  | update => exact ⟨_, Update.ofJson?_eq_record⟩
  | delete => exact ⟨_, Delete.ofJson?_eq_record⟩
  | columnDefinition => exact ⟨_, Column.ofJson?_eq_record⟩
  | foreignKey => exact ⟨_, ForeignKey.ofJson?_eq_record⟩
  | createTable => exact ⟨_, CreateTable.ofJson?_eq_record⟩
  | createIndex => exact ⟨_, CreateIndex.ofJson?_eq_record⟩

theorem IsWrapped.exists_wrap {α β : Type} {decode : Json → Option α} {inner : Json → Option β}
    (h : IsWrapped decode inner) : ∃ wrap : β → α, ∀ j, decode j = (inner j).map wrap := by
  cases h with
  | cell => exact ⟨_, Cell.content_value⟩
  | raw => exact ⟨_, Expr.content_raw⟩
  | rawColumn => exact ⟨_, Expr.content_rawColumn⟩
  | group => exact ⟨_, Expr.content_group⟩
  | _ => exact ⟨_, fun _ => rfl⟩

end BoundSql
