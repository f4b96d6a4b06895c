import PositionFeed.Address
import PositionFeed.Blueprint.Basic
import PositionFeed.Decimal.Literal
import PositionFeed.Word

namespace PositionFeed

/-!
# Where the bus leads

A bus channel sends every record to one address.  Its parameters name the
address and may name a format and the size of the largest record; a size that
is no number is ignored.
-/

/-- Where records go, and in which form. -/
structure BusTarget where
  /-- The address of the receiver. -/
  address : SocketAddress
  /-- The format of the records. -/
  format : WireFormat
  /-- The size of the largest record in bytes. -/
  largestRecord : Nat
  deriving Repr, DecidableEq

/-- Why parameters name no target. -/
inductive TargetDefect where
  /-- They name no address. -/
  | missingAddress
  /-- They name an address that is none. -/
  | invalidAddress (value : String)
  /-- They name a format that does not exist. -/
  | unknownFormat (value : String)
  deriving Repr, DecidableEq

/-- The wording of parameters that name no target. -/
def TargetDefect.message : TargetDefect → String
  | .missingAddress => "missing 'addr' parameter"
  | .invalidAddress value =>
      "invalid address '" ++ value ++ "': " ++ SocketAddress.syntaxMessage
  | .unknownFormat value => "unknown format '" ++ value ++ "'"

namespace BusTarget

/-- The size of the largest record unless parameters say otherwise. -/
def usualLargestRecord : Nat := 65000

/-- The format that parameters name. -/
def formatOf (parameters : Parameters) : Except TargetDefect WireFormat :=
  match parameters.get? "format" with
  | none => .ok .json
  | some value =>
      match WireFormat.ofParameter? value with
      | some format => .ok format
      | none => .error (.unknownFormat value)

/-- The size of the largest record that parameters name. -/
def largestRecordOf (parameters : Parameters) : Nat :=
  match parameters.get? "max_packet_size" with
  | none => usualLargestRecord
  | some value =>
      match WholeLiteral.readNat (Word.greatest 64) value.toList with
      | .ok size => size
      | .error _ => usualLargestRecord

/-- The target that parameters name. -/
def ofParameters (parameters : Parameters) : Except TargetDefect BusTarget := do
  let some value := parameters.get? "addr" | .error .missingAddress
  let some address := SocketAddress.read? value
    | .error (.invalidAddress value)
  let format ← formatOf parameters
  .ok ⟨address, format, largestRecordOf parameters⟩

end BusTarget

end PositionFeed
