/-!
# Why a byte stream does not decode

Every reader of this library's binary formats fails with a `DecodeError`: the cause, as a
constructor, with the numbers its wording needs. Two kinds are told apart because a caller may
react to them differently.

- `DecodeError.Kind.unexpectedEnd`: the bytes stop too early, so a longer stream may still decode.
- `DecodeError.Kind.invalidData`: no continuation of the bytes decodes.
-/

namespace Concordance

/-- Why a byte stream does not decode. -/
inductive DecodeError where
  /-- Ten bytes of a varint all announce a further byte. -/
  | varintTooLong
  /-- The bytes end inside a varint. -/
  | varintIncomplete
  /-- A varint holds a value of more than 32 bits. -/
  | varintTooWide (value : UInt64)
  /-- A gap list announces more blocks than bytes are left. -/
  | tooManyBlocks (blocks : Nat)
  /-- The announced gap bytes do not fit 32-bit offsets. -/
  | gapBytesOverflow
  /-- The bytes end inside the gaps. -/
  | gapsTruncated
  /-- The head of a block does not lie above the block before it. -/
  | headNotAscending (block : Nat) (head : UInt32)
  /-- A gap of zero would repeat a member. -/
  | zeroGap
  /-- A gap leads past the greatest 32-bit number. -/
  | gapOverflow
  /-- A block has bytes left after its last gap. -/
  | trailingBytes (block : Nat) (count : Nat)
  /-- A word stream does not consist of whole words. -/
  | raggedWords (length : Nat)
  deriving DecidableEq, Repr

namespace DecodeError

/-- Whether more bytes could have helped. -/
inductive Kind where
  /-- No continuation of the bytes decodes. -/
  | invalidData
  /-- The bytes stop too early. -/
  | unexpectedEnd
  deriving DecidableEq, Repr

/-- The kind of a failure: only a stream that stops early could have gone on to decode. -/
def kind : DecodeError → Kind
  | .varintIncomplete => .unexpectedEnd
  | .gapsTruncated => .unexpectedEnd
  | _ => .invalidData

/-- The wording of a failure. -/
def message : DecodeError → String
  | .varintTooLong => "Varint exceeds maximum length (possible corruption)"
  | .varintIncomplete => "Incomplete varint"
  | .varintTooWide value => s!"Varint {value} does not fit in u32"
  | .tooManyBlocks blocks => s!"Block count {blocks} exceeds available bytes"
  | .gapBytesOverflow => "Delta byte length overflow"
  | .gapsTruncated => "Truncated delta stream"
  | .headNotAscending block head => s!"Block {block} head {head} is not ascending"
  | .zeroGap => "Zero delta"
  | .gapOverflow => "Delta overflows u32"
  | .trailingBytes block count => s!"Block {block} has {count} trailing bytes"
  | .raggedWords length => s!"Word stream length {length} is not a multiple of 4"

end DecodeError

end Concordance
