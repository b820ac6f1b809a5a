import Switcher.Config.Parser
import Switcher.Lib.Lines
import Switcher.Lib.Numeral

/-!
`ini.c`. The parser of configuration files down to their characters, with any
handler. A line is what one `fgets` stores, so that a line too long for the
buffer is taken for several.
-/

namespace Switcher.Ini

open Lib.Program Lib.Text Lib.Numeral Lib.Lines

/-- `MAX_SECTION`. -/
def maxSection : Nat := 50

def maxName : Nat := 50

/-- `INI_MAX_LINE`. -/
def iniMaxLine : Nat := 200

/-- The byte order mark of UTF-8. -/
def bom : List Char := [Char.ofNat 0xEF, Char.ofNat 0xBB, Char.ofNat 0xBF]

/-- The text in front of the place that `find_char_or_comment` returns, and the
text from there on. -/
def findCharOrComment (c : Char) (wasWhitespace : Bool) : List Char → List Char × List Char
  | [] => ([], [])
  | a :: s =>
      if a = c ∨ (wasWhitespace ∧ a = ';') then ([], a :: s)
      else
        let found := findCharOrComment c (isSpace a) s
        (a :: found.1, found.2)

/-- `strncpy0`: the buffer is terminated in any case. -/
def strncpy0 (src : CString) (size : Nat) : List Char := (strncpy src size).set (size - 1) nul

/-- What `ini_parse_file` keeps from line to line. -/
structure Locals where
  sectionName : List Char
  prevName : List Char
  lineno : Int
  error : Int

def Locals.init : Locals :=
  ⟨List.replicate maxSection nul, List.replicate maxName nul, 0, 0⟩

/-- `if (!error) error = lineno`. -/
def Locals.fail (v : Locals) : Locals :=
  if v.error = 0 then { v with error := v.lineno } else v

section Parser

variable {ε σ : Type} (handler : IniEntry → EStateM ε σ Int)

def callHandler (sectionName name value : CString) (v : Locals) : EStateM ε σ Locals := do
  let rc ← handler ⟨sectionName, name, value⟩
  return if rc = 0 then v.fail else v

/-- A line with a name and a value, from the name on. -/
def parsePair (start : List Char) (v : Locals) : EStateM ε σ Locals :=
  let found := findCharOrComment '=' false start
  let found := if found.2.head? ≠ some '=' then findCharOrComment ':' false start else found
  if found.2.head? = some '=' ∨ found.2.head? = some ':' then
    let name := CString.ofBuffer (rstrip isSpace found.1)
    let value := lskip isSpace found.2.tail
    let value := CString.ofBuffer (rstrip isSpace (findCharOrComment nul false value).1)
    callHandler handler (.ofBuffer v.sectionName) name value
      { v with prevName := strncpy0 name maxName }
  else pure v.fail

/-- One pass of the loop, with the characters that `fgets` stored. -/
def parseLine (line : List Char) (v : Locals) : EStateM ε σ Locals :=
  let v := { v with lineno := v.lineno + 1 }
  let line := (CString.ofBuffer line).chars
  let skipped := if v.lineno = 1 ∧ bom <+: line then bom.length else 0
  let text := rstrip isSpace (line.drop skipped)
  let start := lskip isSpace text
  let offset := skipped + (text.length - start.length)
  if start.head? = some ';' ∨ start.head? = some '#' then pure v
  else if v.prevName.head? ≠ some nul ∧ start ≠ [] ∧ 0 < offset then
    callHandler handler (.ofBuffer v.sectionName) (.ofBuffer v.prevName) (.ofBuffer start) v
  else if start.head? = some '[' then
    let found := findCharOrComment ']' false start.tail
    if found.2.head? = some ']' then
      pure { v with
        sectionName := strncpy0 (.ofBuffer found.1) maxSection
        prevName := v.prevName.set 0 nul }
    else pure v.fail
  else if start ≠ [] ∧ start.head? ≠ some ';' then parsePair handler start v
  else pure v

/-- The loop over the lines that are left. -/
def parseLines : List (List Char) → Locals → EStateM ε σ Int
  | [], v => pure v.error
  | line :: rest, v => do
      let v ← parseLine handler line v
      parseLines rest v

def iniParseFile (file : List Char) : EStateM ε σ Int :=
  parseLines handler (linesOf '\n' iniMaxLine file) .init

/-- `ini_parse`. The file is `none` where it cannot be opened. -/
def iniParse : Option (List Char) → EStateM ε σ Int
  | none => pure (-1)
  | some file => iniParseFile handler file

end Parser

/-- `parse_config` on the characters of a file. -/
def parseConfig {κ : Type} (K : Kernel κ) (file : Option (List Char)) : ParserM κ Int := do
  if (← iniParse (parserHandler K) file) < 0 then return exitFailure else return exitSuccess

end Switcher.Ini
