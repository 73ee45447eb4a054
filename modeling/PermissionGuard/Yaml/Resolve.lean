import PermissionGuard.Number.Double
import PermissionGuard.Yaml.Fault
import PermissionGuard.Yaml.Timestamp

/-!
The tags of scalars, and the values that plain scalars stand for.
-/

namespace PermissionGuard.Yaml

namespace Tag

def str : Text := "!!str"
def bool : Text := "!!bool"
def int : Text := "!!int"
def float : Text := "!!float"
def timestamp : Text := "!!timestamp"
def null : Text := "!!null"
def seq : Text := "!!seq"
def map : Text := "!!map"
def merge : Text := "!!merge"
def binary : Text := "!!binary"

/-- The start of the tags of the standard types. -/
def standard : Text := "tag:yaml.org,2002:"

/-- The short form of a tag. -/
def short (tag : Text) : Text :=
  if tag.startsWith standard then "!!" ++ tag.drop standard.length else tag

/-- The tags whose scalars are read as values. Scalars with any other tag stay texts. -/
def isResolvable (tag : Text) : Bool :=
  [str, bool, int, float, null, timestamp].contains tag

end Tag

/-- The value of a scalar. -/
inductive Resolved where
  | null
  | bool (b : Bool)
  | int (n : Int)
  | float (x : Number.Double)
  | timestamp
  | text (t : Text)
  deriving DecidableEq, Repr

def Resolved.tag : Resolved → Text
  | .null => Tag.null
  | .bool _ => Tag.bool
  | .int _ => Tag.int
  | .float _ => Tag.float
  | .timestamp => Tag.timestamp
  | .text _ => Tag.str

/-- The words with a meaning of their own. -/
def words : List (String × Resolved) :=
  [("true", .bool true), ("True", .bool true), ("TRUE", .bool true),
   ("false", .bool false), ("False", .bool false), ("FALSE", .bool false),
   ("", .null), ("~", .null), ("null", .null), ("Null", .null), ("NULL", .null),
   (".nan", .float .nan), (".NaN", .float .nan), (".NAN", .float .nan),
   (".inf", .float (.infinite false)), (".Inf", .float (.infinite false)),
   (".INF", .float (.infinite false)),
   ("+.inf", .float (.infinite false)), ("+.Inf", .float (.infinite false)),
   ("+.INF", .float (.infinite false)),
   ("-.inf", .float (.infinite true)), ("-.Inf", .float (.infinite true)),
   ("-.INF", .float (.infinite true))]

/-- The value of a text that begins with a digit or a sign: an integer, where underscores may
separate digits, or a decimal fraction. -/
def number? (t : Text) : Option Resolved :=
  let plain : Text := t.filter (· != 0x5F)
  let binaryOrOctal : Option Resolved :=
    if plain.startsWith "0b" then
      (Number.int64InBase? 2 (plain.drop 2)).map Resolved.int
        <|> (Number.uint64InBase? 2 (plain.drop 2)).map (Resolved.int ·)
    else if plain.startsWith "-0b" then
      (Number.int64InBase? 2 ("-" ++ plain.drop 3)).map Resolved.int
    else if plain.startsWith "0o" then
      (Number.int64InBase? 8 (plain.drop 2)).map Resolved.int
        <|> (Number.uint64InBase? 8 (plain.drop 2)).map (Resolved.int ·)
    else if plain.startsWith "-0o" then
      (Number.int64InBase? 8 ("-" ++ plain.drop 3)).map Resolved.int
    else none
  (Number.int64? plain).map Resolved.int
    <|> (Number.uint64? plain).map (Resolved.int ·)
    <|> (Number.double? plain).map Resolved.float
    <|> binaryOrOctal

/-- The value of a plain scalar. -/
def resolvePlain (allowTimestamp : Bool) (t : Text) : Resolved :=
  match words.find? fun (word, _) => Text.ofString word == t with
  | some (_, value) => value
  | none =>
    match t with
    | [] => .null
    | b :: _ =>
      let value : Option Resolved :=
        if b == 0x2E then (Number.separatedDouble? t).map Resolved.float
        else if (0x30 ≤ b && b ≤ 0x39) || b == 0x2B || b == 0x2D then
          if allowTimestamp && Timestamp.isTimestamp t then some .timestamp else number? t
        else none
      value.getD (.text t)

/-- The value of a scalar with a tag, which it has to agree with. A signed integer is a float too,
and a tag without values of its own leaves the text as it is. -/
def resolve (tag t : Text) : Except Fault Resolved :=
  if !Tag.isResolvable tag || tag = Tag.str then .ok (.text t)
  else
    let value := resolvePlain (tag = Tag.timestamp) t
    let refused : Fault := ⟨0, "cannot decode " ++ value.tag ++ " \x60" ++ t ++ "\x60 as a " ++ tag⟩
    if value.tag = tag then .ok value
    else match value with
      | .int n =>
          if tag = Tag.float && n ≤ Number.maxInt64 then .ok (.float (Number.Double.ofInt n))
          else .error refused
      | _ => .error refused

end PermissionGuard.Yaml
