import Switcher.Io.Config
import Switcher.Lib.Program
import Switcher.Lib.Numeral
import Switcher.Lib.Text

/-!
`parse_uri` and the parsers of its components. The state is `buf_uri`, the copy
of the URI that both levels of tokens are cut out of; a pointer into it is an
index. An access beyond its `BUF_LEN` characters is a fault.
-/

namespace Switcher

open Lib.Numeral Lib.Text

def bufLen : Nat := 1024

def uriDelim : List Char := ['/']

def devDelim : List Char := ['.']

inductive RequestT where
  | err | get | set
  deriving DecidableEq, Repr

inductive UriStage where
  | bus | dev | value
  deriving DecidableEq, Repr

inductive IoSuccess where
  | ok | error
  deriving DecidableEq, Repr

abbrev UriM (α : Type) := EStateM Fault (List Char) α

/-- The conversion of a 64-bit `long` to `idx_t`. -/
def toIdx (n : Int) : Int := n.bmod (2 ^ 32)

/-- The conversion of an `unsigned long` to `value_t`. -/
def toValue (n : Nat) : Value := BitVec.ofNat 32 n

theorem ends_nul : Ends nul := by
  constructor <;> decide

theorem nul_notMem_toDigits {base : Nat} (hbase : Radix base) (n : Nat) :
    nul ∉ Nat.toDigits base n :=
  ends_nul.notMem_toDigits hbase n

/-- `strtok_r`: the token and what `saveptr` is set to. -/
def strtok (delim : List Char) (start : Nat) : UriM (Option Nat × Nat) := do
  let buf ← get
  match strtokR delim buf start with
  | none => throw .outOfBounds
  | some r => do
      set r.buf
      return (r.token, r.saveptr)

/-- `*endptr != '\0'` decides between `RC_IO_ERROR` and `RC_IO_OK`. -/
def checkEnd (endptr : List Char) : UriM IoSuccess :=
  match endptr with
  | [] => throw .outOfBounds
  | c :: _ => pure (if c ≠ nul then .error else .ok)

/-- A decimal index: `strtol` and the check of its end pointer. -/
def parseIdx (token : Nat) : UriM (IoSuccess × Int) := do
  let buf ← get
  let rc ← checkEnd (strtol (buf.drop token) 10).2
  return (rc, toIdx (strtol (buf.drop token) 10).1)

def parseBus (token : Nat) (parts : IoData) : UriM (IoSuccess × IoData) := do
  let (rc, idx) ← parseIdx token
  return (rc, { parts with idxBus := idx })

/-- `parse_dev`. The result of its first `strtok_r` goes into `strtol` unchecked. -/
def parseDev (token : Nat) (parts : IoData) : UriM (IoSuccess × IoData) := do
  let (devToken, saveptr) ← strtok devDelim token
  match devToken with
  | none => throw .nullDeref
  | some devToken => do
      let (rc, idx) ← parseIdx devToken
      let parts := { parts with idxDev := idx }
      match rc with
      | .error => return (.error, parts)
      | .ok => do
          let (devToken, _) ← strtok devDelim saveptr
          match devToken with
          | none => return (.ok, parts)
          | some devToken => do
              let (rc, idx) ← parseIdx devToken
              return (rc, { parts with idxSubDev := idx })

def parseValue (token : Nat) (parts : IoData) : UriM (IoSuccess × IoData) := do
  let buf ← get
  let rc ← checkEnd (strtoul (buf.drop token) 16).2
  return (rc, { parts with value := toValue (strtoul (buf.drop token) 16).1 })

def parseStage (stage : UriStage) (token : Nat) (parts : IoData) :
    UriM (IoSuccess × IoData) :=
  match stage with
  | .bus => parseBus token parts
  | .dev => parseDev token parts
  | .value => parseValue token parts

/-- `result` after a stage has been parsed. -/
def UriStage.next (stage : UriStage) (result : RequestT) : RequestT :=
  match stage with
  | .bus => result
  | .dev => .get
  | .value => .set

/-- The loop over the stages still to come. It ends with the stages or with the
tokens, so that the `default` branch for an illegal stage is never reached. -/
def parseStages : List UriStage → Option Nat × Nat → RequestT → IoData →
    UriM (RequestT × IoData)
  | stage :: stages, (some token, rest), result, parts => do
      let (rc, parts) ← parseStage stage token parts
      match rc with
      | .error => return (.err, parts)
      | .ok => do
          let next ← strtok uriDelim rest
          parseStages stages next (stage.next result) parts
  | _, _, result, parts => return (result, parts)

def uriStages : List UriStage := [.bus, .dev, .value]

def parseBuf : UriM (RequestT × IoData) := do
  let next ← strtok uriDelim 0
  parseStages uriStages next .err initIoData

/-- The outcome of a program, without the buffer it leaves. -/
def outcome {α : Type} (m : UriM α) (s : List Char) : Except Fault α :=
  match m s with
  | .ok a _ => .ok a
  | .error e _ => .error e

/-- `parse_uri`: the request type and `*parts`. -/
def parseUri (uri : CString) : Except Fault (RequestT × IoData) :=
  outcome parseBuf (strncpy uri bufLen)

end Switcher
