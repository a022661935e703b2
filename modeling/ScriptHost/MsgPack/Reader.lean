import ScriptHost.MsgPack.Basic

set_option autoImplicit false

namespace ScriptHost.MsgPack

/-- Why bytes are not a document. -/
inductive Fault where
  | marker
  | number
  | body (expected found : Nat)
  | depth
deriving DecidableEq, Repr

def Fault.message : Fault → String
  | marker => "I/O error while reading marker byte: failed to fill whole buffer"
  | number => "I/O error while reading non-marker bytes: failed to fill whole buffer"
  | body expected found =>
      "I/O error while reading non-marker bytes: Expected " ++ toString expected ++
        " bytes, read " ++ toString found ++ " bytes"
  | depth => "depth limit exceeded"

/-- The outcome of a reader: a result and the bytes behind it, or a fault. -/
abbrev Read (α : Type) := Except Fault (α × List UInt8)

/-- The natural that some bytes spell, most significant first. -/
def ofBigEndian (bytes : List UInt8) : Nat := bytes.foldl (fun n byte => 256 * n + byte.toNat) 0

/-- Reads an unsigned number of some bytes, and goes on with it. -/
def unsigned {α : Type} (width : Nat) (s : List UInt8) (next : Nat → List UInt8 → Read α) :
    Read α :=
  let bytes := s.take width
  if bytes.length < width then .error .number else next (ofBigEndian bytes) (s.drop width)

/-- The signed number with the given bits. -/
def toSigned (width : Nat) (n : Nat) : Int :=
  if n < Nat.pow 2 (8 * width - 1) then n else (n : Int) - Nat.pow 2 (8 * width)

/-- Reads a body of some bytes. -/
def body {α : Type} (length : Nat) (s : List UInt8) (make : List UInt8 → α) : Read α :=
  let bytes := s.take length
  if bytes.length < length then .error (.body length bytes.length)
  else .ok (make bytes, s.drop length)

/-- Reads some items one after the other; those read so far are given in reverse. -/
def many {α : Type} (item : List UInt8 → Read α) : Nat → List α → List UInt8 → Read (List α)
  | 0, read, s => .ok (read.reverse, s)
  | count + 1, read, s =>
      match item s with
      | .error fault => .error fault
      | .ok (value, s) => many item count (value :: read) s

/-- Reads a key and its value. -/
def pair (item : List UInt8 → Read MsgPack) (s : List UInt8) : Read (MsgPack × MsgPack) :=
  match item s with
  | .error fault => .error fault
  | .ok (key, s) =>
      match item s with
      | .error fault => .error fault
      | .ok (value, s) => .ok ((key, value), s)

/-- How a value is read whose marker is known. `budget` is what is left for its body, and `nested`
reads what an array or a map holds, if the budget admits any. -/
structure Level where
  budget : Nat
  nested : Option (List UInt8 → Read MsgPack)

namespace Level

def stringBody (level : Level) (length : Nat) (s : List UInt8) : Read MsgPack :=
  if level.budget < 2 then .error .depth else body length s .string

def binaryBody (level : Level) (length : Nat) (s : List UInt8) : Read MsgPack :=
  if level.budget < 1 then .error .depth else body length s .binary

def extensionBody (level : Level) (length : Nat) (s : List UInt8) : Read MsgPack :=
  if level.budget < 1 then .error .depth
  else unsigned 1 s fun type s =>
    if level.budget < 2 then .error .depth else body length s (.extension (toSigned 1 type))

def arrayBody (level : Level) (length : Nat) (s : List UInt8) : Read MsgPack :=
  match level.nested with
  | none => .error .depth
  | some item =>
      match many item length [] s with
      | .error fault => .error fault
      | .ok (items, s) => .ok (.array items, s)

def mapBody (level : Level) (length : Nat) (s : List UInt8) : Read MsgPack :=
  match level.nested with
  | none => .error .depth
  | some item =>
      match many (pair item) length [] s with
      | .error fault => .error fault
      | .ok (pairs, s) => .ok (.map pairs, s)

/-- Reads what follows a marker. The one marker without a meaning reads as nil. -/
def afterMarker (level : Level) (marker : Nat) (s : List UInt8) : Read MsgPack :=
  if marker < 0x80 then .ok (.integer marker, s)
  else if marker < 0x90 then level.mapBody (marker - 0x80) s
  else if marker < 0xa0 then level.arrayBody (marker - 0x90) s
  else if marker < 0xc0 then level.stringBody (marker - 0xa0) s
  else if 0xe0 ≤ marker then .ok (.integer ((marker : Int) - 256), s)
  else match marker with
    | 0xc2 => .ok (.bool false, s)
    | 0xc3 => .ok (.bool true, s)
    | 0xc4 => unsigned 1 s level.binaryBody
    | 0xc5 => unsigned 2 s level.binaryBody
    | 0xc6 => unsigned 4 s level.binaryBody
    | 0xc7 => unsigned 1 s level.extensionBody
    | 0xc8 => unsigned 2 s level.extensionBody
    | 0xc9 => unsigned 4 s level.extensionBody
    | 0xca => unsigned 4 s fun n s => .ok (.single (UInt32.ofNat n), s)
    | 0xcb => unsigned 8 s fun n s => .ok (.double ⟨UInt64.ofNat n⟩, s)
    | 0xcc => unsigned 1 s fun n s => .ok (.integer n, s)
    | 0xcd => unsigned 2 s fun n s => .ok (.integer n, s)
    | 0xce => unsigned 4 s fun n s => .ok (.integer n, s)
    | 0xcf => unsigned 8 s fun n s => .ok (.integer n, s)
    | 0xd0 => unsigned 1 s fun n s => .ok (.integer (toSigned 1 n), s)
    | 0xd1 => unsigned 2 s fun n s => .ok (.integer (toSigned 2 n), s)
    | 0xd2 => unsigned 4 s fun n s => .ok (.integer (toSigned 4 n), s)
    | 0xd3 => unsigned 8 s fun n s => .ok (.integer (toSigned 8 n), s)
    | 0xd4 => level.extensionBody 1 s
    | 0xd5 => level.extensionBody 2 s
    | 0xd6 => level.extensionBody 4 s
    | 0xd7 => level.extensionBody 8 s
    | 0xd8 => level.extensionBody 16 s
    | 0xd9 => unsigned 1 s level.stringBody
    | 0xda => unsigned 2 s level.stringBody
    | 0xdb => unsigned 4 s level.stringBody
    | 0xdc => unsigned 2 s level.arrayBody
    | 0xdd => unsigned 4 s level.arrayBody
    | 0xde => unsigned 2 s level.mapBody
    | 0xdf => unsigned 4 s level.mapBody
    | _ => .ok (.nil, s)

def read (level : Level) : List UInt8 → Read MsgPack
  | [] => .error .marker
  | marker :: s => level.afterMarker marker.toNat s

end Level

/-- Reads one value within a budget, which bounds nesting: each value takes one from it, and so does
each body with the parts that it is made of. -/
def read : Nat → List UInt8 → Read MsgPack
  | 0, _ => .error .depth
  | 1, s => Level.read ⟨0, none⟩ s
  | budget + 2, s => Level.read ⟨budget + 1, some (read budget)⟩ s

/-- The budget a document is read with. -/
def depthBudget : Nat := 1024

end ScriptHost.MsgPack
