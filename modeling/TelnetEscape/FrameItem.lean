import TelnetEscape.Escape.Basic

/-!
# Frame items

A framed connection takes its payload item by item and appends each to a frame buffer. An item is
a single byte, a block of bytes or a run of bytes; each goes in with its IACs doubled, and the
borders between items leave no trace (`encode_eq`).
-/

namespace TelnetEscape

/-- One piece of payload for a frame. -/
inductive FrameItem
  | byte (b : UInt8)
  | block (data : ByteArray)
  | run (data : Bytes)

namespace FrameItem

/-- The payload that an item stands for. -/
def bytes : FrameItem → Bytes
  | byte b => [b]
  | block data => data.data.toList
  | run data => data

/-- Appends one byte, with a second IAC before it if it is one. -/
def appendByte (buffer : Bytes) (b : UInt8) : Bytes :=
  (if b = iac then buffer ++ [iac] else buffer) ++ [b]

/-- Appends an item to a frame buffer. -/
def encode (buffer : Bytes) : FrameItem → Bytes
  | byte b => appendByte buffer b
  | block data => appendEscaped buffer data.data.toList
  | run data => appendEscaped buffer data

/-- Appends items one after the other. -/
def encodeAll (buffer : Bytes) (items : List FrameItem) : Bytes :=
  items.foldl encode buffer

theorem appendByte_eq (buffer : Bytes) (b : UInt8) :
    appendByte buffer b = buffer ++ escapeByte b := by
  by_cases h : b = iac <;> simp [appendByte, escapeByte, h]

/-- Whatever its form, an item adds the escaped form of its payload. -/
theorem encode_eq (buffer : Bytes) (item : FrameItem) :
    encode buffer item = buffer ++ escape item.bytes := by
  cases item with
  | byte b => simp [encode, bytes, appendByte_eq]
  | block data | run data => exact appendEscaped_eq buffer _

end FrameItem
end TelnetEscape
