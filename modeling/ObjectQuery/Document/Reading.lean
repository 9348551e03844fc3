import ObjectQuery.Calendar.Reading
import ObjectQuery.Document.Plain
import ObjectQuery.Sql.Value

/-!
# Typed reading of documents

Every reader gives a value or nothing; why a document is not of the wanted form does not
matter to those who read it.

## Main Definitions

* `text?`, `bool?`, `int64?`, `float?` — scalars
* `choice?` — one of several names
* `optional?`, `items?` — optional parts and lists
* `Fields`, `fields?` — records with known fields
* `variant?` — a part whose fields depend on its kind
* `value?` — a bind value
-/

namespace ObjectQuery.Document

open ObjectQuery.Number ObjectQuery.Calendar ObjectQuery.Sql

/-- A document without the tags around it. -/
def untagged : Document → Document
  | .tagged _ content => content.untagged
  | d => d

/-- The value of a settled scalar. -/
def datum? : Document → Option Datum
  | .scalar value _ => value
  | _ => none

/-- What was written for a scalar. -/
def written? (d : Document) : Option Written :=
  match d.untagged with
  | .scalar _ written => written
  | _ => none

/-- The characters of a scalar that stood without quotes. -/
def plain? (d : Document) : Option (List Char) :=
  (d.written?.filter (·.form == .plain)).map (·.text.toList)

/-- Whether a scalar is read as a value of a type: it stands without quotes, or as a literal
block under the tag of that type. -/
def Written.mayBe (type : TypeTag) (w : Written) : Bool :=
  match w.form with
  | .plain => true
  | .literal => w.tag == some type
  | .other => false

/-- The characters of a scalar that is read as a value of a type. -/
def typed? (type : TypeTag) (d : Document) : Option (List Char) :=
  (d.written?.filter (·.mayBe type)).map (·.text.toList)

/-- A text: directly any scalar as it was written. -/
def text? (style : Style) (d : Document) : Option String :=
  match style with
  | .direct => d.written?.map (·.text)
  | .given | .settled =>
    match d.datum? with
    | some (.text s) => some s
    | _ => none

/-- A truth value. -/
def bool? (style : Style) (d : Document) : Option Bool :=
  match style with
  | .direct => (d.typed? .bool).bind boolOf?
  | .given | .settled =>
    match d.datum? with
    | some (.bool b) => some b
    | _ => none

/-- A whole number. -/
def integer? (style : Style) (d : Document) : Option Int :=
  match style with
  | .direct => (d.typed? .integer).bind integerOf?
  | .given | .settled =>
    match d.datum? with
    | some (.integer n) => some n
    | _ => none

/-- A 64-bit integer. -/
def int64? (style : Style) (d : Document) : Option Int64 := (d.integer? style).bind int64OfInt?

/-- A 32-bit integer. -/
def int32? (style : Style) (d : Document) : Option Int32 := (d.integer? style).bind int32OfInt?

/-- A floating-point number, possibly written as a whole number. -/
def float? (style : Style) (d : Document) : Option Float :=
  match style with
  | .direct => (d.typed? .float).bind floatOf?
  | .given | .settled =>
    match d.datum? with
    | some (.float x) => some x
    | some (.integer n) => some (Float.ofInt n)
    | _ => none

/-- Whether a document is the null value. -/
def isAbsent (d : Document) : Bool :=
  match d.datum? with
  | some .null => true
  | _ => false

/-- Whether a document is a record of nothing. -/
def isEmptyRecord : Document → Bool
  | .record [] => true
  | _ => false

/-- Whether a scalar stands for nothing: without quotes and tag if its text does, and without
quotes under the tag of the null value if its text is written and does.  No other text may stand
under that tag, and under any other tag every scalar stands for something. -/
def Written.isAbsent? (w : Written) : Option Bool :=
  match w.form, w.tag with
  | .plain, none => some (isNull w.text.toList)
  | .plain, some .null => if w.text != "" && isNull w.text.toList then some true else none
  | _, _ => some false

/-- Whether an optional part is absent; none if its tag does not fit. -/
def isAbsent? (style : Style) (d : Document) : Option Bool :=
  match style with
  | .direct =>
    match d.written? with
    | some w => w.isAbsent?
    | none => some false
  | .given | .settled => some d.isAbsent

/-- The name that a key stands for: a text, directly as it was written, or settled the place of
the name among those that are known.  Nothing for a key that cannot name a field. -/
def keyName? (style : Style) (names : List String) (key : Document) : Option String :=
  match style, key.datum? with
  | .settled, some (.integer n) => if 0 ≤ n then some ((names[n.toNat]?).getD "") else none
  | _, _ => key.text? style

/-- One of several names.  A direct choice may be a tag, and any other may be a record of the
name alone. -/
def choice? {α : Type} (style : Style) (choices : List (String × α)) (d : Document) :
    Option α :=
  let name? : Option String := match style, d with
    | .direct, .tagged tag content => if content.plain?.any isNull then some tag else none
    | .given, .record [⟨key, value⟩] => if value.isAbsent then key.text? .given else none
    | .settled, .record [⟨key, value⟩] =>
      if value.isAbsent || value.isEmptyRecord then
        key.keyName? .settled (choices.map (·.1))
      else none
    | _, _ => d.text? style
  name?.bind fun name => choices.lookup name

/-- An optional part; absent parts read as nothing. -/
def optional? {α : Type} (style : Style) (read : Document → Option α) (d : Document) :
    Option (Option α) :=
  (d.isAbsent? style).bind fun absent => if absent then some none else (read d).map some

/-- Whether a direct scalar is empty, which stands for an empty list or record. -/
def isBlank (style : Style) (d : Document) : Bool :=
  style == .direct && (d.plain?).any List.isEmpty

/-- The items of a list. -/
def items? (style : Style) (d : Document) : Option (List Document) :=
  match style, d with
  | .direct, _ =>
    match d.untagged with
    | .list items => some items
    | _ => if d.isBlank .direct then some [] else none
  | _, .list items => some items
  | _, _ => none

/-- The values of a list, each read in the same way. -/
def list? {α : Type} (style : Style) (read : Document → Option α) (d : Document) :
    Option (List α) :=
  (d.items? style).bind (List.mapM read)

/-- A list of texts. -/
def texts? (style : Style) (d : Document) : Option (List String) := d.list? style (text? style)

/-! ### Records -/

/-- The values of a record by the names of its fields. -/
structure Fields where
  values : List (String × Document)

/-- The value of a field. -/
def Fields.get? (fields : Fields) (name : String) : Option Document := fields.values.lookup name

/-- The fields with known names among entries; nothing if one is given twice. -/
def pickFields? (style : Style) (names : List String) : List Entry → Option Fields
  | [] => some ⟨[]⟩
  | ⟨key, value⟩ :: entries =>
    (key.keyName? style names).bind fun name =>
      (pickFields? style names entries).bind fun fields =>
        if names.contains name then
          if (fields.get? name).isSome then none else some ⟨(name, value) :: fields.values⟩
        else some fields

/-- The known fields of a record; a list that is not read directly gives them in order. -/
def fields? (style : Style) (names : List String) (d : Document) : Option Fields :=
  match style, d with
  | .direct, _ =>
    match d.untagged with
    | .record entries => pickFields? .direct names entries
    | _ => if d.isBlank .direct then some ⟨[]⟩ else none
  | _, .record entries => pickFields? style names entries
  | _, .list items => if items.length ≤ names.length then some ⟨names.zip items⟩ else none
  | _, _ => none

/-- Splits the entries of a record by a predicate on their keys. -/
def splitEntries (named : Document → Bool) (entries : List Entry) : List Entry × List Entry :=
  entries.partition fun e => named e.key

/-- The kind that a document names: a text, or settled its place among the kinds. -/
def kindName? (style : Style) (kinds : List String) (d : Document) : Option String :=
  (d.keyName? style kinds).filter kinds.contains

/-- A part whose fields depend on its kind: the kind and the other fields, settled.  A record
names its kind once under the key `kind`; a list starts with it. -/
def variant? (style : Style) (kinds : List String) (d : Document) :
    Option (String × Document) :=
  match d with
  | .record entries =>
    match splitEntries (fun key => key.text? .settled == some "kind") entries with
    | ([⟨key, kind⟩], rest) => under kind (key.settles && settlesEntries rest) (.record rest)
    | _ => none
  | .list (kind :: items) => under kind (settlesItems items) (.list items)
  | _ => none
where
  /-- The fields under a kind, if they can be settled or are already. -/
  under (kind : Document) (settles : Bool) (rest : Document) : Option (String × Document) :=
    if style == .direct && !settles then none
    else (kind.kindName? style kinds).map fun name => (name, rest)

/-- Whether a part of a kind without fields may stand: what a record holds is passed over. -/
def holdsNothing : Document → Bool
  | .record _ => true
  | .list items => items.isEmpty
  | _ => false

/-! ### Bind values -/

/-- The bind value of a settled scalar: a whole number that needs more than 64 bits with sign
becomes a floating-point number, and a text in the form of a date becomes a date. -/
def Datum.toValue : Datum → Value
  | .null => .null
  | .bool b => .bool b
  | .integer n =>
    match int64OfInt? n with
    | some i => .integer i
    | none => .float (Float.ofInt n)
  | .float x => .float x
  | .text s =>
    match DateTime.ofValue? s with
    | some date => .date date
    | none => .text s

/-- A bind value; only scalars are. -/
def value? (d : Document) : Option Value :=
  if d.settles then d.datum?.map Datum.toValue else none

/-! ### Fields -/

namespace Fields

/-- A field that must be given. -/
def required? {α : Type} (fields : Fields) (name : String) (read : Document → Option α) :
    Option α :=
  (fields.get? name).bind read

/-- A field that may be left out. -/
def withDefault? {α : Type} (fields : Fields) (name : String) (default : α)
    (read : Document → Option α) : Option α :=
  match fields.get? name with
  | some d => read d
  | none => some default

/-- A field that may be left out or absent. -/
def optional? {α : Type} (fields : Fields) (name : String) (style : Style)
    (read : Document → Option α) : Option (Option α) :=
  fields.withDefault? name none (Document.optional? style read)

end Fields

end ObjectQuery.Document
