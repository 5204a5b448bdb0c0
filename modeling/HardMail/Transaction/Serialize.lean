import HardMail.Types

open memory

namespace hardmail.serialize

/-- The output memory, the write position, and a record of every index stored to. -/
structure Writer where
  out : List UInt8
  offset : Nat
  written : List Nat
  deriving DecidableEq, Repr

/-- `memmove(out + offset, src, len); offset += len;` -/
def Writer.memmove (w : Writer) (src : List UInt8) (len : Nat) : Writer where
  out := blit w.out w.offset src
  offset := w.offset + len
  written := (List.range len).map (w.offset + ·) ++ w.written

/-- `out[offset++] = b;` -/
def Writer.store (w : Writer) (b : UInt8) : Writer := w.memmove [b] 1

/-- A text field behind its one-byte length. -/
def Writer.field (w : Writer) (mem : List UInt8) (p : Ptr) (len : UInt8) : Writer :=
  (w.store len).memmove (deref mem p len.toNat) len.toNat

/-- `need`, which leaves the attachment and its count out. -/
def need (tx : Transaction) : Nat :=
  CHALLENGE_LEN + 1 + tx.from_len.toNat + 1 + tx.to_len.toNat + 1 + tx.subject_len.toNat + 2 +
    tx.body_len.toNat

/-- The stores before the attachment. -/
def writeFields (mem : List UInt8) (tx : Transaction) (w : Writer) : Writer :=
  let w := w.memmove (deref mem tx.challenge CHALLENGE_LEN) CHALLENGE_LEN
  let w := w.field mem tx.from_ tx.from_len
  let w := w.field mem tx.to_ tx.to_len
  let w := w.field mem tx.subject tx.subject_len
  let w := (w.store (tx.body_len >>> 8).toUInt8).store (tx.body_len &&& 0xff).toUInt8
  w.memmove (deref mem tx.body tx.body_len.toNat) tx.body_len.toNat

/-- The stores of an attachment, its count included. -/
def writeAttachment (mem : List UInt8) (tx : Transaction) (w : Writer) : Writer :=
  let w := (w.store 1).field mem tx.att_name tx.att_name_len
  let w := (w.store (tx.att_size >>> 24).toUInt8).store (tx.att_size >>> 16).toUInt8
  let w := (w.store (tx.att_size >>> 8).toUInt8).store tx.att_size.toUInt8
  w.memmove (deref mem tx.att_hash ATT_HASH_LEN) ATT_HASH_LEN

/-- The value returned and what was written, for a structure whose pointers point
into `mem`. -/
def transaction_serialize (mem : List UInt8) (tx : Transaction) (out : List UInt8) (out_len : Nat) :
    Int × Writer :=
  let w : Writer := ⟨out, 0, []⟩
  if need tx > out_len then (-1, w)
  else
    let w := writeFields mem tx w
    if tx.has_attachment ≠ 0 then
      if w.offset + 1 + 1 + tx.att_name_len.toNat + 4 + ATT_HASH_LEN > out_len then (-1, w)
      else
        let w := writeAttachment mem tx w
        (w.offset, w)
    else if w.offset + 1 > out_len then (-1, w)
    else
      let w := w.store 0
      (w.offset, w)

end hardmail.serialize
