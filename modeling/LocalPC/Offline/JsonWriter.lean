import LocalPC.Lib.FloatText

/-!
# The JSON writer of the reports

`json_writer.hpp`: `ObjectBuilder` appends the texts of keys and values to a buffer. The programs
that build a report are sequences of calls, with the nested objects as the calls that the lambda
makes on the child builder.
-/

namespace LocalPC.Offline
open Lib

def quote : UInt8 := 34
def backslash : UInt8 := 92
def colon : UInt8 := 58
def space : UInt8 := 32
def openBrace : UInt8 := 123
def closeBrace : UInt8 := 125
def openBracket : UInt8 := 91
def closeBracket : UInt8 := 93

namespace Json

def escape (c : UInt8) : Bytes :=
  if c = quote then [backslash, quote]
  else if c = backslash then [backslash, backslash]
  else if c = newline then [backslash, 110]
  else if c = 13 then [backslash, 114]
  else if c = 9 then [backslash, 116]
  else [c]

def str (s : Bytes) : Bytes := quote :: s.flatMap escape ++ [quote]

def toString (v : Int) : Bytes := if v < 0 then minus :: decimal v.natAbs else decimal v.natAbs

def numDouble (v : Float) (prec : Nat) : Bytes :=
  if v.isNaN || v.isInf then ascii "null"
  else
    let s := (defaultfloat prec v).bytes
    if dot ∉ s ∧ lowerE ∉ s then s ++ ascii ".0" else s

def boolean (v : Bool) : Bytes := if v then ascii "true" else ascii "false"

/-- The values that have a formatter of their own. The 32-bit overloads of `num` print like the
64-bit ones. -/
inductive Scalar where
  | str (s : Bytes)
  | int64 (v : Int64)
  | uint64 (v : UInt64)
  | double (v : Float) (prec : Nat)
  | boolean (v : Bool)
  | null

def Scalar.text : Scalar → Bytes
  | .str s => Json.str s
  | .int64 v => toString v.toInt
  | .uint64 v => decimal v.toNat
  | .double v prec => numDouble v prec
  | .boolean v => Json.boolean v
  | .null => ascii "null"

/-! ## The builder -/

structure ObjectBuilder where
  indent : Nat := 2
  depth : Nat := 0
  buf : Bytes := []
  empty : Bool := true

def spaces (n : Nat) : Bytes := List.replicate n space

def itemLines : List Bytes → Bytes
  | [] => []
  | [item] => item ++ [newline]
  | item :: rest => item ++ [comma, newline] ++ itemLines rest

def bracketed (closePad : Bytes) (lines : List Bytes) : Bytes :=
  if lines = [] then ascii "[]" else ascii "[\n" ++ itemLines lines ++ closePad ++ ascii "]"

/-- The loop of `raw_array` over the lines of one object: each is indented, and all but the first
follow a line break. -/
def indentLines (objPad obj : Bytes) : Bytes :=
  match getlines newline obj with
  | [] => []
  | line :: lines => objPad ++ line ++ lines.flatMap fun line => newline :: (objPad ++ line)

/-- The clean-up in `build`: a comma before the last character is taken for the separator behind the
last field. It becomes a newline, and the last character is dropped. -/
def dropComma (result : Bytes) : Bytes :=
  if 2 ≤ result.length ∧ result[result.length - 2]? = some comma then
    result.take (result.length - 2) ++ [newline]
  else result

namespace ObjectBuilder

def appendKey (b : ObjectBuilder) (key : Bytes) : ObjectBuilder :=
  { b with
    buf := b.buf ++ (spaces ((b.depth + 1) * b.indent) ++ str key ++ ascii ": "), empty := false }

def append (b : ObjectBuilder) (text : Bytes) : ObjectBuilder := { b with buf := b.buf ++ text }

def build (b : ObjectBuilder) : Bytes :=
  if b.empty then ascii "\x7b\x7d"
  else dropComma (ascii "\x7b\n" ++ b.buf) ++ (spaces (b.depth * b.indent) ++ ascii "\x7d")

def field (b : ObjectBuilder) (key val : Bytes) : ObjectBuilder := (b.appendKey key).append val

def object (b : ObjectBuilder) (key : Bytes) (fn : ObjectBuilder → ObjectBuilder) : ObjectBuilder :=
  let child : ObjectBuilder := { indent := b.indent, depth := b.depth + 1 }
  (b.appendKey key).append (fn child).build

def array (b : ObjectBuilder) (key : Bytes) (items : List Bytes) : ObjectBuilder :=
  let pad := spaces ((b.depth + 2) * b.indent)
  (b.appendKey key).append (bracketed (spaces ((b.depth + 1) * b.indent)) (items.map (pad ++ ·)))

def rawArray (b : ObjectBuilder) (key : Bytes) (objs : List Bytes) : ObjectBuilder :=
  let objPad := spaces ((b.depth + 2) * b.indent)
  (b.appendKey key).append
    (bracketed (spaces ((b.depth + 1) * b.indent)) (objs.map (indentLines objPad)))

end ObjectBuilder

/-! ## Programs -/

mutual

inductive Call where
  | field (key : Bytes) (value : Scalar)
  | fieldBuilt (key : Bytes) (obj : Built)
  | object (key : Bytes) (calls : List Call)
  | array (key : Bytes) (items : List Scalar)
  | rawArray (key : Bytes) (objs : List Built)

/-- A builder of its own, made with `indent` and `depth`, and the calls on it. -/
inductive Built where
  | mk (indent depth : Nat) (calls : List Call)

end

def Call.key : Call → Bytes
  | .field key _ | .fieldBuilt key _ | .object key _ | .array key _ | .rawArray key _ => key

mutual

def Call.apply : Call → ObjectBuilder → ObjectBuilder
  | .field key value, b => b.field key value.text
  | .fieldBuilt key obj, b => b.field key obj.text
  | .object key calls, b => b.object key (applyAll calls)
  | .array key items, b => b.array key (items.map Scalar.text)
  | .rawArray key objs, b => b.rawArray key (builtTexts objs)

def applyAll : List Call → ObjectBuilder → ObjectBuilder
  | [], b => b
  | call :: calls, b => applyAll calls (call.apply b)

def Built.text : Built → Bytes
  | .mk indent depth calls => (applyAll calls { indent := indent, depth := depth }).build

def builtTexts : List Built → List Bytes
  | [] => []
  | obj :: objs => obj.text :: builtTexts objs

end

end Json
end LocalPC.Offline
