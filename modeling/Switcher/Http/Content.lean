import Switcher.Io.Request
import Switcher.Http.ParseUri

/-!
The texts of a reply: what the callbacks of `perform_io` print into the `content`
buffer, and what `mg_printf` sends of it.
-/

namespace Switcher

open Lib.Text

/-- `snprintf(buf, BUF_LEN, ...)`: the text is cut to fit and terminated, and the
characters behind it stay. -/
def snprintf (text buf : List Char) : List Char :=
  text.take (bufLen - 1) ++ nul :: buf.drop ((text.take (bufLen - 1)).length + 1)

/-- `%s` of a buffer. -/
def cText (buf : List Char) : List Char := buf.takeWhile (· ≠ nul)

/-- `%d`. -/
def formatInt (n : Int) : List Char :=
  if n < 0 then '-' :: Nat.toDigits 10 n.natAbs else Nat.toDigits 10 n.natAbs

/-- `%x`. -/
def formatHex (value : Value) : List Char := Nat.toDigits 16 value.toNat

def ioDataJson (data : IoData) : List Char :=
  "callback(\x7b \"bus_idx\": \"".toList ++ formatInt data.idxBus ++
    "\", \"dev_idx\": ".toList ++ formatInt data.idxDev ++
    ", \"dev_sub_idx\": ".toList ++ formatInt data.idxSubDev ++
    ", \"value\": \"".toList ++ formatHex data.value ++ "\" \x7d)".toList

def errorJson (errorMsg : List Char) : List Char :=
  "\x7b \"msg\": \"".toList ++ errorMsg ++ "\" \x7d".toList

def ioDataToJson (data : IoData) (buf : List Char) : List Char :=
  snprintf (ioDataJson data) buf

def errorToJson (errorMsg buf : List Char) : List Char :=
  snprintf (errorJson errorMsg) buf

def httpCallbacks : Callbacks (List Char) := ⟨ioDataToJson, errorToJson⟩

/-- `char content[BUF_LEN] = { '\0' }`. -/
def freshContent : List Char := List.replicate bufLen nul

def httpReply (content : List Char) : List Char :=
  "HTTP/1.1 200 OK\r\nContent-Type: text/javascript\r\nContent-Length: ".toList ++
    Nat.toDigits 10 (cText content).length ++ "\r\n\r\n".toList ++ cText content

/-- The content of the reply to a URI that is not accepted. -/
def refusedContent : List Char := errorToJson "Invalid request type".toList freshContent

end Switcher
