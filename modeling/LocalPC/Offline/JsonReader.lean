import Mathlib.Data.List.Lex
import LocalPC.Lib.FloatText
import LocalPC.Offline.JsonWriter

/-!
# The JSON reader

`json_reader.hpp`. The parser works on the rest of the text behind `pos`. Its recursion is bounded
by fuel, of which `json_parse` has enough for every text.
-/

namespace LocalPC.Offline
open Lib

inductive JsonValue where
  | null
  | bool (b : Bool)
  | int (i : Int)
  | double (d : Float)
  | string (s : Bytes)
  | array (arr : List JsonValue)
  | object (obj : List (Bytes × JsonValue))

def JsonValue.IsScalar : JsonValue → Prop
  | .array _ | .object _ | .string _ => False
  | _ => True

/-- `obj[key] = value` in a map, whose entries are in the order of the keys. -/
def insertKey {α : Type} (key : Bytes) (value : α) : List (Bytes × α) → List (Bytes × α)
  | [] => [(key, value)]
  | (k, v) :: rest =>
      if key = k then (k, value) :: rest
      else if key < k then (key, value) :: (k, v) :: rest
      else (k, v) :: insertKey key value rest

inductive JsonError where
  | expectedQuote
  | unterminatedString
  | unexpectedChar (c : UInt8) (pos : Nat)
  | expectedOpenBrace
  | expectedColon
  | expectedCommaOrBrace
  | expectedOpenBracket
  | expectedCommaOrBracket
  | number (e : StdException)
  | outOfFuel
  deriving DecidableEq, Repr

/-- `what()` of the exception. The conversions of the standard library have their own. -/
def JsonError.what : JsonError → Bytes
  | .expectedQuote => ascii "expected '\"'"
  | .unterminatedString => ascii "unterminated string"
  | .unexpectedChar c pos => ascii "unexpected char '" ++ [c] ++ ascii "' at pos " ++ decimal pos
  | .expectedOpenBrace => ascii "expected '\x7b'"
  | .expectedColon => ascii "expected ':'"
  | .expectedCommaOrBrace => ascii "expected ',' or '\x7d'"
  | .expectedOpenBracket => ascii "expected '['"
  | .expectedCommaOrBracket => ascii "expected ',' or ']'"
  | .number .invalidArgument => ascii "invalid argument"
  | .number .outOfRange => ascii "out of range"
  | .outOfFuel => []

abbrev Parsing := Except JsonError

namespace JsonParser

def peek (rest : Bytes) : UInt8 := rest.headD 0

def isWs (c : UInt8) : Bool := c = space || c = 9 || c = newline || c = 13

def skipWs (rest : Bytes) : Bytes := rest.dropWhile isWs

def unescape (e : UInt8) : UInt8 :=
  if e = 110 then newline else if e = 114 then 13 else if e = 116 then 9 else e

def appendChar (c : UInt8) (later : Parsing (Bytes × Bytes)) : Parsing (Bytes × Bytes) :=
  later.map fun (out, rest) => (c :: out, rest)

/-- The loop of `parse_string`. A backslash at the end of the text does not end the string. -/
def stringBody : Bytes → Parsing (Bytes × Bytes)
  | [] => .error .unterminatedString
  | c :: rest =>
      if c = quote then .ok ([], rest)
      else if c = backslash then
        match rest with
        | [] => .error .unterminatedString
        | e :: rest => appendChar (unescape e) (stringBody rest)
      else appendChar c (stringBody rest)

def parseString (rest : Bytes) : Parsing (Bytes × Bytes) :=
  if peek rest ≠ quote then .error .expectedQuote else stringBody rest.tail

def skipDigits (rest : Bytes) : Bytes := rest.dropWhile isDigit

def skipIf (found : UInt8 → Bool) (rest : Bytes) : Bytes :=
  if found (peek rest) then rest.tail else rest

def scanNumber (start : Bytes) : Bool × Bytes :=
  let rest := skipDigits (skipIf (· = minus) start)
  let hasDot : Bool := peek rest = dot
  let rest := skipDigits (skipIf (· = dot) rest)
  if peek rest = lowerE ∨ peek rest = upperE then
    (true, skipDigits (skipIf (fun c => c = plus || c = minus) rest.tail))
  else (hasDot, rest)

def convert (isFloat : Bool) (tok : Bytes) : Except StdException JsonValue :=
  if isFloat then (stod tok).map .double else (stoll tok).map .int

def parseNumber (start : Bytes) : Parsing (JsonValue × Bytes) :=
  let (isFloat, rest) := scanNumber start
  let tok := start.take (start.length - rest.length)
  match convert isFloat tok with
  | .ok v => .ok (v, rest)
  | .error e => .error (.number e)

mutual

/-- `size` is the length of the whole text, for the position in an error. -/
def parseValue (size : Nat) : Nat → Bytes → Parsing (JsonValue × Bytes)
  | 0, _ => .error .outOfFuel
  | fuel + 1, rest =>
      let rest := skipWs rest
      let c := peek rest
      if c = quote then do
        let (s, rest) ← parseString rest
        return (.string s, rest)
      else if c = openBrace then parseObject size fuel rest
      else if c = openBracket then parseArray size fuel rest
      else if c = minus ∨ isDigit c then parseNumber rest
      else if rest.take 4 = ascii "true" then .ok (.bool true, rest.drop 4)
      else if rest.take 5 = ascii "false" then .ok (.bool false, rest.drop 5)
      else if rest.take 4 = ascii "null" then .ok (.null, rest.drop 4)
      else .error (.unexpectedChar c (size - rest.length))

def parseObject (size : Nat) : Nat → Bytes → Parsing (JsonValue × Bytes)
  | 0, _ => .error .outOfFuel
  | fuel + 1, rest =>
      if peek rest ≠ openBrace then .error .expectedOpenBrace
      else
        let rest := skipWs rest.tail
        if peek rest = closeBrace then .ok (.object [], rest.tail)
        else parseMembers size fuel rest []

def parseMembers (size : Nat) : Nat → Bytes → List (Bytes × JsonValue) → Parsing (JsonValue × Bytes)
  | 0, _, _ => .error .outOfFuel
  | fuel + 1, rest, obj =>
      if rest = [] then .ok (.object obj, rest)
      else do
        let (key, rest) ← parseString (skipWs rest)
        let rest := skipWs rest
        if peek rest ≠ colon then .error .expectedColon
        else
          let (value, rest) ← parseValue size fuel (skipWs rest.tail)
          let rest := skipWs rest
          if peek rest = comma then parseMembers size fuel rest.tail (insertKey key value obj)
          else if peek rest = closeBrace then .ok (.object (insertKey key value obj), rest.tail)
          else .error .expectedCommaOrBrace

def parseArray (size : Nat) : Nat → Bytes → Parsing (JsonValue × Bytes)
  | 0, _ => .error .outOfFuel
  | fuel + 1, rest =>
      if peek rest ≠ openBracket then .error .expectedOpenBracket
      else
        let rest := skipWs rest.tail
        if peek rest = closeBracket then .ok (.array [], rest.tail)
        else parseItems size fuel rest []

def parseItems (size : Nat) : Nat → Bytes → List JsonValue → Parsing (JsonValue × Bytes)
  | 0, _, _ => .error .outOfFuel
  | fuel + 1, rest, arr =>
      if rest = [] then .ok (.array arr, rest)
      else do
        let (value, rest) ← parseValue size fuel (skipWs rest)
        let rest := skipWs rest
        if peek rest = comma then parseItems size fuel rest.tail (arr ++ [value])
        else if peek rest = closeBracket then .ok (.array (arr ++ [value]), rest.tail)
        else .error .expectedCommaOrBracket

end

end JsonParser

/-- `json_parse`. What follows the value is not looked at. -/
def jsonParse (text : Bytes) : Except JsonError JsonValue :=
  (JsonParser.parseValue text.length (3 * text.length + 3) (JsonParser.skipWs text)).map Prod.fst

end LocalPC.Offline
