import HardMail.Transaction.Deserialize
import HardMail.Email

open memory codec

namespace hardmail.deserialize

section run
variable {α β : Type} (s : ParserState)

@[simp] theorem map_run (m : Parser α) (f : α → β) :
    (f <$> m).run s = match m.run s with
      | .ok a s' => .ok (f a) s'
      | .error e s' => .error e s' := by
  change EStateM.map f m s = _
  unfold EStateM.map EStateM.run
  cases m s <;> rfl

@[simp] theorem modifyTx_run (f : Transaction → Transaction) :
    (modifyTx f).run s = .ok () { s with tx := f s.tx } := rfl

@[simp] theorem moveTo_run (buf : Buffer) (read : List Nat) :
    (moveTo buf read).run s = .ok () { s with buf, record := s.record.add read buf.offset } := rfl

@[simp] theorem inspect_run (i : Nat) :
    (inspect i).run s = .ok (s.buf.ptr.getD i 0) { s with record := s.record.add [i] s.buf.offset } := rfl

@[simp] theorem refuseIf_run (b : Prop) [Decidable b] (e : ParserStatus) :
    (refuseIf b e).run s = if b then .error e s else .ok () s := by
  unfold refuseIf
  split <;> rfl

/-- A seek moves the cursor and records where it is, or fails without doing either. -/
theorem seek_cur_run (n : Nat) :
    (seek_cur n).run s = match buffer_seek_cur s.buf n with
      | some buf => .ok true { s with buf, record := s.record.add [] buf.offset }
      | none => .ok false s := by
  simp only [seek_cur, EStateM.run_bind, EStateM.run_get]
  cases buffer_seek_cur s.buf n <;> simp

/-- A read moves the cursor over the bytes it loads and records both, or fails without doing
either. -/
theorem read_run (k : Nat) (sdk_read : Buffer → Option (α × Buffer)) :
    (read k sdk_read).run s = match sdk_read s.buf with
      | some (v, buf) =>
        .ok (some v) ⟨buf, s.tx, s.record.add ((List.range k).map (s.buf.offset + ·)) buf.offset⟩
      | none => .ok none s := by
  simp only [read, EStateM.run_bind, EStateM.run_get]
  cases sdk_read s.buf <;> simp

end run

/-- The parser gives up, with an error status. -/
def Fails (m : Parser Unit) (s : ParserState) : Prop :=
  ∃ error s', error ≠ .PARSING_OK ∧ m.run s = .error error s'

/-- A parser reads exactly the encodings of a codec: in front of one it moves
past it and stores what it says, and in front of anything else it gives up. -/
def Parses {α : Type} (m : Parser Unit) (c : Codec UInt8 α)
    (store : α → Nat → Transaction → Transaction) : Prop :=
  ∀ s : ParserState, s.buf.Valid →
    (∃ a tail s', s.buf.rest = c.encode a ++ tail ∧ m.run s = .ok () s' ∧
      s'.buf = s.buf.advance (c.encode a).length ∧ s'.tx = store a s.buf.offset s.tx) ∨
    ((∀ a tail, s.buf.rest ≠ c.encode a ++ tail) ∧ Fails m s)

namespace Parses

variable {α β γ : Type} {m n : Parser Unit} {c : Codec UInt8 α} {d : Codec UInt8 β}
  {f : α → Nat → Transaction → Transaction} {g : β → Nat → Transaction → Transaction}

/-- Parsers in sequence read pairs. -/
theorem seq (hm : Parses m c f) (hn : Parses n d g) :
    Parses (m >>= fun _ => n) (c.pair d)
      fun v off tx => g v.2 (off + (c.encode v.1).length) (f v.1 off tx) := by
  intro s hvalid
  obtain ⟨a, tail, s₁, hrest, hrun, hbuf, htx⟩ | ⟨hno, error, s₁, herror, hrun⟩ := hm s hvalid
  · obtain ⟨hvalid₁, hrest₁⟩ := hvalid.advance hrest
    rw [← hbuf] at hvalid₁ hrest₁
    obtain ⟨b, last, s₂, hrest₂, hrun₂, hbuf₂, htx₂⟩ | ⟨hno, error, s₂, herror, hrun₂⟩ := hn s₁ hvalid₁
    · left
      refine ⟨(a, b), last, s₂, ?_, ?_, ?_, ?_⟩
      · rw [hrest, ← hrest₁, hrest₂]
        exact (List.append_assoc _ _ _).symm
      · rw [EStateM.run_bind, hrun]
        exact hrun₂
      · rw [hbuf₂, hbuf, Buffer.advance_advance]
        simp [Codec.pair]
      · rw [htx₂, hbuf, htx, Buffer.advance_offset]
    · right
      refine ⟨?_, error, s₂, herror, ?_⟩
      · rintro ⟨a', b⟩ last heq
        have hsplit : c.encode a ++ tail = c.encode a' ++ (d.encode b ++ last) := by
          rw [← hrest, heq]
          exact List.append_assoc _ _ _
        have htail := (c.append_inj hsplit).2
        rw [hrest₁] at hno
        exact hno b last htail
      · rw [EStateM.run_bind, hrun]
        exact hrun₂
  · right
    refine ⟨?_, error, s₁, herror, ?_⟩
    · rintro ⟨a, b⟩ last heq
      apply hno a (d.encode b ++ last)
      rw [heq]
      exact List.append_assoc _ _ _
    · rw [EStateM.run_bind, hrun]

/-- The same bytes, read as values of an equivalent type. -/
theorem iso (hm : Parses m c f) (e : α ≃ γ) :
    Parses m (c.iso e) fun v => f (e.symm v) := by
  intro s hvalid
  obtain ⟨a, tail, s', hrest, hrun, hbuf, htx⟩ | ⟨hno, herror⟩ := hm s hvalid
  · left
    refine ⟨e a, tail, s', ?_, hrun, ?_, ?_⟩ <;> simpa [Codec.iso]
  · right
    exact ⟨fun v => hno (e.symm v), herror⟩

/-- What a parser stores may be written in another way. -/
theorem congr_store {f' : α → Nat → Transaction → Transaction} (hm : Parses m c f)
    (hstore : ∀ a off tx, f a off tx = f' a off tx) : Parses m c f' := by
  have heq : f = f' := by
    funext a off tx
    exact hstore a off tx
  rwa [← heq]

/-- A parser followed by a further store. -/
theorem store (hm : Parses m c f) (g : Transaction → Transaction) :
    Parses (m >>= fun _ => modifyTx g) c fun v off tx => g (f v off tx) := by
  intro s hvalid
  obtain ⟨a, tail, s', hrest, hrun, hbuf, htx⟩ | ⟨hno, error, s', herror, hrun⟩ := hm s hvalid
  · left
    refine ⟨a, tail, { s' with tx := g s'.tx }, hrest, ?_, hbuf, ?_⟩
    · rw [EStateM.run_bind, hrun]
      exact modifyTx_run s' g
    · rw [htx]
  · right
    refine ⟨hno, error, s', herror, ?_⟩
    rw [EStateM.run_bind, hrun]

/-- A parser of length-prefixed texts, from what it does when the prefix is cut
short, when the text behind it is right and when it is not. -/
theorem of_text {k : Nat} {p : List UInt8 → Prop} [DecidablePred p]
    (hp : ∀ l, p l → l.length < 256 ^ k) (put : Nat → Nat → Transaction → Transaction)
    (hshort : ∀ s : ParserState, s.buf.Valid → s.buf.rest.length < k → Fails m s)
    (haccept : ∀ (s : ParserState) (head tail : List UInt8), s.buf.Valid → head.length = k →
      s.buf.rest = head ++ tail → beValue head ≤ tail.length → p (tail.take (beValue head)) →
      ∃ record, m.run s = .ok ()
        ⟨s.buf.advance (k + beValue head), put (beValue head) s.buf.offset s.tx, record⟩)
    (hrefuse : ∀ (s : ParserState) (head tail : List UInt8), s.buf.Valid → head.length = k →
      s.buf.rest = head ++ tail → ¬ (beValue head ≤ tail.length ∧ p (tail.take (beValue head))) →
      Fails m s) :
    Parses m (.text k p hp) fun l => put l.val.length := by
  intro s hvalid
  by_cases hprefix : s.buf.rest.length < k
  · right
    refine ⟨?_, hshort s hvalid hprefix⟩
    intro a tail heq
    rw [heq, List.length_append, Codec.text_encode_length] at hprefix
    omega
  have hhead : (s.buf.rest.take k).length = k := by
    rw [List.length_take]
    omega
  have hrest := (List.take_append_drop k s.buf.rest).symm
  generalize s.buf.rest.take k = head at hhead hrest
  generalize s.buf.rest.drop k = tail at hrest
  by_cases hok : beValue head ≤ tail.length ∧ p (tail.take (beValue head))
  · left
    obtain ⟨record, hrun⟩ := haccept s head tail hvalid hhead hrest hok.1 hok.2
    have hlen : (tail.take (beValue head)).length = beValue head := by
      rw [List.length_take, Nat.min_eq_left hok.1]
    refine ⟨⟨_, hok.2⟩, tail.drop (beValue head), _, ?_, hrun, ?_, ?_⟩
    · rw [hrest]
      exact (Codec.text_encode_take hp hhead hok.1 hok.2).symm
    · rw [Codec.text_encode_length, hlen]
    · simp only [hlen]
  · right
    refine ⟨?_, hrefuse s head tail hvalid hhead hrest hok⟩
    intro a rest heq
    rw [hrest] at heq
    exact hok (Codec.of_text_prefix hp hhead heq)

end Parses

end hardmail.deserialize
