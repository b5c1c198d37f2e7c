import Launcher.Json.Basic
import Launcher.Number.Printed
import Launcher.Text.Quoted

/-! Two texts of a document: the JSON text that files hold, in ASCII with one space after commas
and colons, and the text that messages and tables show. -/
namespace Launcher.Json

def unitEscape (n : Nat) : List Char := '\\' :: 'u' :: Text.hexDigits n 4

/-- The letter that stands behind a backslash for a character; the quote and the backslash stand for
themselves. -/
def escapeLetter? : Char → Option Char
  | '"' => some '"'
  | '\\' => some '\\'
  | '\x08' => some 'b'
  | '\t' => some 't'
  | '\n' => some 'n'
  | '\x0C' => some 'f'
  | '\r' => some 'r'
  | _ => none

def escapedChar (c : Char) : List Char :=
  match escapeLetter? c with
  | some letter => ['\\', letter]
  | none =>
    if 0x20 ≤ c.toNat && c.toNat < 0x7F then [c]
    else if c.toNat < 0x10000 then unitEscape c.toNat
    else
      let rest := c.toNat - 0x10000
      unitEscape (0xD800 + rest / 0x400) ++ unitEscape (0xDC00 + rest % 0x400)

def renderString (s : String) : List Char := '"' :: (s.toList.flatMap escapedChar ++ ['"'])

def renderFloat : Binary64 → List Char
  | .nan => "NaN".toList
  | .signed negative rank =>
    if rank.val = infinityRank then (if negative then "-Infinity" else "Infinity").toList
    else (Number.text (.signed negative rank)).toList

def intText (n : Int) : String := toString n

mutual

def render : Json → List Char
  | .null => "null".toList
  | .bool true => "true".toList
  | .bool false => "false".toList
  | .int n => (intText n).toList
  | .float x => renderFloat x
  | .string s => renderString s
  | .list values => '[' :: (renderItems values ++ [']'])
  | .object pairs => '\x7b' :: (renderMembers pairs ++ ['\x7d'])

def renderItems : List Json → List Char
  | [] => []
  | [v] => render v
  | v :: rest => render v ++ ',' :: ' ' :: renderItems rest

def renderMembers : List (String × Json) → List Char
  | [] => []
  | [(name, v)] => renderString name ++ ':' :: ' ' :: render v
  | (name, v) :: rest =>
    renderString name ++ ':' :: ' ' :: (render v ++ ',' :: ' ' :: renderMembers rest)

end

mutual

/-- A value inside a list or an object as messages show it, texts being quoted. -/
def shown : Json → List Char
  | .null => "None".toList
  | .bool true => "True".toList
  | .bool false => "False".toList
  | .int n => (intText n).toList
  | .float x => (Number.text x).toList
  | .string s => Text.quotedChars s.toList
  | .list values => '[' :: (shownItems values ++ [']'])
  | .object pairs => '\x7b' :: (shownMembers pairs ++ ['\x7d'])

def shownItems : List Json → List Char
  | [] => []
  | [v] => shown v
  | v :: rest => shown v ++ ',' :: ' ' :: shownItems rest

def shownMembers : List (String × Json) → List Char
  | [] => []
  | [(name, v)] => Text.quotedChars name.toList ++ ':' :: ' ' :: shown v
  | (name, v) :: rest =>
    Text.quotedChars name.toList ++ ':' :: ' ' :: (shown v ++ ',' :: ' ' :: shownMembers rest)

end

/-- A value as messages show it: a text stands for itself. -/
def display : Json → String
  | .string s => s
  | v => String.ofList (shown v)

end Launcher.Json
