import IntraDoc.Data.Binary64
import IntraDoc.Data.Moment
import IntraDoc.Text.Quoted

/-!
# Values of documents

A document of settings is a value: a scalar, a list, or a table with its entries in the order in
which they are written. Every value can be shown as a text; inside lists and tables texts are shown
in quotes, and dates by their numbers.
-/

namespace IntraDoc

/-- A value of a document. -/
inductive Value where
  /-- Nothing. -/
  | null
  /-- A truth value. -/
  | bool (value : Bool)
  /-- An integer. -/
  | int (value : Int)
  /-- A decimal fraction. -/
  | real (value : Binary64)
  /-- A date or a time. -/
  | moment (value : Moment)
  /-- A text. -/
  | text (value : Text)
  /-- A sequence of bytes. -/
  | bytes (value : List UInt8)
  /-- A list. -/
  | list (items : List Value)
  /-- A list that can be a key. -/
  | tuple (items : List Value)
  /-- A set. -/
  | set (items : List Value)
  /-- A table. -/
  | table (entries : List (Value × Value))
  /-- A table that is written as a list of its entries. -/
  | orderedTable (entries : List (Value × Value))
  /-- The list or table that this place is inside of. -/
  | enclosing (isTable : Bool)
deriving Repr

namespace Value

/-- A byte as it is shown between quotes: printable or escaped. -/
def byteLiteral (quote : Char) (byte : UInt8) : Text :=
  let char := Char.ofNat byte.toNat
  let hex (digit : Nat) : Char := (Nat.toDigits 16 digit).headD '0'
  if char = quote || char = '\\' then ['\\', char]
  else if char = '\t' then "\\t".toList
  else if char = '\n' then "\\n".toList
  else if char = '\r' then "\\r".toList
  else if 0x20 ≤ byte && byte < 0x7F then [char]
  else ['\\', 'x', hex (byte.toNat / 16), hex (byte.toNat % 16)]

/-- Bytes as they are shown: in double quotes only if that spares escaping a single one. -/
def bytesLiteral (bytes : List UInt8) : Text :=
  let quote := if bytes.contains 0x27 && !bytes.contains 0x22 then '"' else '\''
  'b' :: quote :: bytes.flatMap (byteLiteral quote) ++ [quote]

mutual

/-- The value as it is shown inside another one. -/
def literal : Value → Text
  | null => "None".toList
  | bool true => "True".toList
  | bool false => "False".toList
  | int value => Text.ofInt value
  | real value => value.display
  | moment value => value.literal
  | text value => Text.quoted value
  | bytes value => bytesLiteral value
  | list items => '[' :: Text.joinWith ", ".toList (literals items) ++ [']']
  | tuple items =>
    let closing := if items.length = 1 then ",)".toList else ")".toList
    '(' :: Text.joinWith ", ".toList (literals items) ++ closing
  | set items =>
    if items.isEmpty then "set()".toList
    else '\x7b' :: Text.joinWith ", ".toList (literals items) ++ ['\x7d']
  | table entries => '\x7b' :: Text.joinWith ", ".toList (entryLiterals entries) ++ ['\x7d']
  | orderedTable entries =>
    if entries.isEmpty then "ordereddict()".toList
    else "ordereddict([".toList ++ Text.joinWith ", ".toList (pairLiterals entries) ++ "])".toList
  | enclosing true => "\x7b...\x7d".toList
  | enclosing false => "[...]".toList

/-- The values as they are shown inside a list. -/
def literals : List Value → List Text
  | [] => []
  | value :: values => literal value :: literals values

/-- The entries as they are shown inside a table. -/
def entryLiterals : List (Value × Value) → List Text
  | [] => []
  | (key, value) :: entries =>
    (literal key ++ ": ".toList ++ literal value) :: entryLiterals entries

/-- The entries as they are shown inside a table that is written as a list. -/
def pairLiterals : List (Value × Value) → List Text
  | [] => []
  | (key, value) :: entries =>
    ('(' :: literal key ++ ", ".toList ++ literal value ++ [')']) :: pairLiterals entries

end

/-- The value as it is shown by itself. -/
def display : Value → Text
  | text value => value
  | moment value => value.display
  | value => literal value

/-- The number of digits of the longest integers that are shown. -/
def digitLimit : Nat := 4300

/-- The least integer that is too long to be shown. -/
def unshowable : Nat := Nat.pow 10 digitLimit

/-- What is said about a value with an integer that is too long to be shown. -/
def unshowableMessage : Text :=
  "Exceeds the limit (".toList ++ Text.ofNat digitLimit ++
    " digits) for integer string conversion; ".toList ++
    "use sys.set_int_max_str_digits() to increase the limit".toList

mutual

/-- Whether every integer in the value is short enough to be shown. -/
def isShowable : Value → Bool
  | int value => value.natAbs < unshowable
  | list items => areShowable items
  | tuple items => areShowable items
  | set items => areShowable items
  | table entries => entriesShowable entries
  | orderedTable entries => entriesShowable entries
  | _ => true

/-- Whether every integer in the values is short enough to be shown. -/
def areShowable : List Value → Bool
  | [] => true
  | value :: values => isShowable value && areShowable values

/-- Whether every integer in the entries is short enough to be shown. -/
def entriesShowable : List (Value × Value) → Bool
  | [] => true
  | (key, value) :: entries => isShowable key && isShowable value && entriesShowable entries

end

/-- The value as it is shown by itself, unless an integer in it is too long. -/
def display? (value : Value) : Option Text :=
  if value.isShowable then some value.display else none

/-- Whether the value counts as nothing: zero, and everything empty. -/
def isVoid : Value → Bool
  | null => true
  | bool value => !value
  | int value => value = 0
  | real value => value.integer? = some 0
  | moment _ => false
  | text value => value.isEmpty
  | bytes value => value.isEmpty
  | list items => items.isEmpty
  | tuple items => items.isEmpty
  | set items => items.isEmpty
  | table entries => entries.isEmpty
  | orderedTable entries => entries.isEmpty
  | enclosing _ => false

/-- The integer that a value is equal to; a truth value is 1 or 0. -/
def integer? : Value → Option Int
  | bool value => some (if value then 1 else 0)
  | int value => some value
  | real value => value.integer?
  | _ => none

mutual

/-- Whether two keys are the same: numbers of the same value are, and truth values are numbers. -/
def sameKey (key key' : Value) : Bool :=
  match key, key' with
  | tuple items, tuple items' => sameKeys items items'
  | null, null => true
  | moment value, moment value' => value.same value'
  | text value, text value' => value = value'
  | bytes value, bytes value' => value = value'
  | _, _ =>
    match key.integer?, key'.integer? with
    | some value, some value' => value = value'
    | none, none =>
      match key, key' with
      | real value, real value' => value = value'
      | _, _ => false
    | _, _ => false

/-- Whether two lists that are keys have the same items. -/
def sameKeys : List Value → List Value → Bool
  | [], [] => true
  | key :: keys, key' :: keys' => sameKey key key' && sameKeys keys keys'
  | _, _ => false

end

/-- The name of the sort of values that a value belongs to. -/
def sort : Value → Text
  | null => "NoneType".toList
  | bool _ => "bool".toList
  | int _ => "int".toList
  | real _ => "float".toList
  | moment (.date _) => "datetime.date".toList
  | moment (.time _) => "datetime.time".toList
  | moment (.dateTime _ _ _) => "datetime.datetime".toList
  | text _ => "str".toList
  | bytes _ => "bytes".toList
  | list _ => "list".toList
  | tuple _ => "tuple".toList
  | set _ => "set".toList
  | table _ => "dict".toList
  | orderedTable _ => "ordereddict".toList
  | enclosing true => "dict".toList
  | enclosing false => "list".toList

/-- The entries of a table. -/
def entries? : Value → Option (List (Value × Value))
  | table entries => some entries
  | orderedTable entries => some entries
  | _ => none

/-- The value under a key of a table. -/
def get? (value : Value) (key : Text) : Option Value :=
  value.entries?.bind fun entries =>
    entries.findSome? fun (found, value) =>
      match found with
      | text name => if name = key then some value else none
      | _ => none

/-- Whether the value is a table. -/
def isTable (value : Value) : Bool :=
  value.entries?.isSome

end Value

end IntraDoc
