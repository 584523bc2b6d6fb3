import EventRelay.Message
import EventRelay.Wire.Layout

/-!
# Fields

The layouts of the values that message bodies are made of. A flag is one byte, written as 0 or 1
and read as set whenever it is not 0. A node address is its family, 4 or 6, and then its octets.
-/

namespace EventRelay.Wire.Layout

def int32 : Layout Int32 := word32.as UInt32.toInt32 Int32.toUInt32

def int64 : Layout Int64 := word64.as UInt64.toInt64 Int64.toUInt64

def binary32 : Layout Binary32 := word32.as Binary32.mk Binary32.bits

def binary64 : Layout Binary64 := word64.as Binary64.mk Binary64.bits

def flag : Layout Bool := byte.as (· != 0) (fun b => if b then 1 else 0)

def color : Layout Color :=
  (byte.seq (byte.seq (byte.seq byte))).as (fun (r, g, b, a) => ⟨r, g, b, a⟩)
    (fun c => (c.red, c.green, c.blue, c.alpha))

def octets4 : Layout UInt32 := word32

def octets6 : Layout (UInt64 × UInt64) := word64.seq word64

def address : Layout Address where
  write
    | .v4 number => (byte.seq octets4).write (4, number)
    | .v6 high low => (byte.seq octets6).write (6, high, low)
  read bytes :=
    match byte.read bytes with
    | .error e => .error e
    | .ok (family, rest) =>
      if family = 4 then octets4.readAs Address.v4 rest
      else if family = 6 then octets6.readAs (fun (high, low) => Address.v6 high low) rest
      else .error (.unknownFamily family)

def status : Layout Status :=
  byte.refine (fun n => match Status.ofNumber? n with
    | some s => .ok s
    | none => .error (.unknownStatus n)) Status.number

def nodeEvent : Layout NodeEvent :=
  byte.refine (fun n => match n.toNat with
    | 0 => .ok .connect
    | 1 => .ok .disconnect
    | _ => .error (.unknownNodeEvent n))
    (fun | .connect => 0 | .disconnect => 1)

def position : Layout Position :=
  int64.refine (fun offset => match Position.ofOffset? offset with
    | some p => .ok p
    | none => .error (.invalidOffset offset)) Position.offset

end EventRelay.Wire.Layout
