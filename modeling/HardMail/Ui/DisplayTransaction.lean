import HardMail.App.Payload

open memory codec

namespace hardmail

/-- Fills the static data of the review, and whether it came to the call of NBGL.
The pointers of `email` point into `mem`. -/
def fillDisplay (mem : List UInt8) (email : Transaction) (d : Display) : Display × Bool :=
  let d := { d with
    g_from := copy_field d.g_from mem email.from_ email.from_len.toNat
    g_to := copy_field d.g_to mem email.to_ email.to_len.toNat
    g_subject := copy_field d.g_subject mem email.subject email.subject_len.toNat
    g_body := copy_field d.g_body mem email.body email.body_len.toNat }
  match format_hex (deref mem email.challenge CHALLENGE_LEN) d.g_request with
  | none => (d, false)
  | some g_request =>
    let d := { d with g_request }
    let d := (d.setPair 0 "From" .g_from).setPair 1 "To" .g_to
    let d := (d.setPair 2 "Subject" .g_subject).setPair 3 "Message" .g_body
    if email.has_attachment ≠ 0 then
      let name : CArray UInt8 (MAX_ATT_NAME_LEN + 1) :=
        copy_field (.fill _ 0) mem email.att_name email.att_name_len.toNat
      let d := { d with g_attachment := snprintf d.g_attachment (nameAndSize (cString name) email.att_size) }
      match format_hex (deref mem email.att_hash ATT_HASH_LEN) d.g_att_hash with
      | none => (d, false)
      | some g_att_hash =>
        let d := { d with g_att_hash }
        let d := (d.setPair 4 "Attachment" .g_attachment).setPair 5 "Attachment SHA-256" .g_att_hash
        ({ d.setPair 6 "Request ID" .g_request with nbPairs := 7 }, true)
    else ({ d.setPair 4 "Request ID" .g_request with nbPairs := 5 }, true)

/-- Builds the review of the email and opens it. -/
def ui_display_transaction (s : AppState) : Effect :=
  let G := s.G_context
  if G.req_type ≠ .CONFIRM_TRANSACTION ∨ G.state ≠ .STATE_PARSED then
    io_send_sw { s with G_context := { G with state := .STATE_NONE } } SWO_CONDITIONS_NOT_SATISFIED
  else
    match fillDisplay G.tx_info.raw_tx.toList G.tx_info.transaction s.display with
    | (display, false) => io_send_sw { s with display } SWO_INCORRECT_DATA
    | (display, true) =>
      ({ s with display, screen := some (.email display.shown) }, [.review (.email display.shown)])

/-- The pairs that show an email. -/
def Email.pairs (e : Email) : List (String × List UInt8) :=
  [("From", e.sender.val), ("To", e.recipient.val), ("Subject", e.subject.val), ("Message", e.body.val)] ++
    (e.attachment.elim [] fun att =>
      [("Attachment", nameAndSize att.name.val att.size), ("Attachment SHA-256", hex att.hash.val)]) ++
    [("Request ID", hex e.challenge.val)]

/-- No two emails show the same pairs. -/
theorem Email.pairs_injective : Function.Injective Email.pairs := by
  intro a b h
  cases ha : a.attachment with
  | none =>
    cases hb : b.attachment with
    | none =>
      simp only [Email.pairs, ha, hb, Option.elim_none, List.append_nil, List.cons_append, List.nil_append,
        List.cons.injEq, Prod.mk.injEq, true_and, and_true] at h
      obtain ⟨hsender, hrecipient, hsubject, hbody, hchallenge⟩ := h
      exact Email.ext (Subtype.ext (hex_injective hchallenge)) (Subtype.ext hsender)
        (Subtype.ext hrecipient) (Subtype.ext hsubject) (Subtype.ext hbody) (by rw [ha, hb])
    | some att =>
      have hlen := congrArg List.length h
      simp [Email.pairs, ha, hb] at hlen
  | some att =>
    cases hb : b.attachment with
    | none =>
      have hlen := congrArg List.length h
      simp [Email.pairs, ha, hb] at hlen
    | some att' =>
      simp only [Email.pairs, ha, hb, Option.elim_some, List.cons_append, List.nil_append,
        List.cons.injEq, Prod.mk.injEq, true_and, and_true] at h
      obtain ⟨hsender, hrecipient, hsubject, hbody, hname, hhash, hchallenge⟩ := h
      obtain ⟨hname, hsize⟩ := nameAndSize_injective hname
      have hatt : att = att' := Attachment.ext (Subtype.ext hname) hsize (Subtype.ext (hex_injective hhash))
      exact Email.ext (Subtype.ext (hex_injective hchallenge)) (Subtype.ext hsender)
        (Subtype.ext hrecipient) (Subtype.ext hsubject) (Subtype.ext hbody) (by rw [ha, hb, hatt])

@[simp] theorem Display.setPair_g_attachment (d : Display) (n : Nat) (item : String) (value : StaticString) :
    (d.setPair n item value).g_attachment = d.g_attachment := rfl

@[simp] theorem Display.setPair_g_att_hash (d : Display) (n : Nat) (item : String) (value : StaticString) :
    (d.setPair n item value).g_att_hash = d.g_att_hash := rfl

/-- Storing a pair extends the pairs before it by that pair. -/
theorem Display.setPair_take (d : Display) {n : Nat} (hn : n < 7) (item : String) (value : StaticString) :
    (d.setPair n item value).pairs.toList.take (n + 1) = d.pairs.toList.take n ++ [⟨item, some value⟩] := by
  have hlen : n < (d.pairs.toList.set n ⟨item, some value⟩).length := by simpa using hn
  simp only [Display.setPair]
  rw [List.take_succ_eq_append_getElem hlen, List.take_set_of_le (Nat.le_refl n), List.getElem_set_self]

/-- A text of a class without the terminator can be stored as a C string. -/
theorem TextOf.zero_not_mem {ok : UInt8 → Prop} {max : Nat} {l : List UInt8} (h : TextOf ok max l)
    (hok : ¬ ok 0) : 0 ∉ l :=
  fun hzero => hok (h.all_ok 0 hzero)

/-- The review of a structure that represents an email shows exactly the pairs of
that email, whatever the static data held before. -/
theorem fillDisplay_shown {mem : List UInt8} {tx : Transaction} {e : Email} (h : tx.Represents mem e)
    (d : Display) : ∃ d', fillDisplay mem tx d = (d', true) ∧ d'.shown = e.pairs := by
  have hfrom := copy_field_cString d.g_from h.from_ e.sender.property.bounded
    (e.sender.property.zero_not_mem (by decide))
  have hto := copy_field_cString d.g_to h.to_ e.recipient.property.bounded
    (e.recipient.property.zero_not_mem (by decide))
  have hsubject := copy_field_cString d.g_subject h.subject e.subject.property.bounded
    (e.subject.property.zero_not_mem (by decide))
  have hbody := copy_field_cString d.g_body h.body e.body.property.bounded
    (e.body.property.zero_not_mem (by decide))
  obtain ⟨g_request, hformat, hrequest⟩ := format_hex_eq_some e.challenge.val d.g_request
    (Nat.le_of_eq (by rw [e.challenge.property]))
  have hattachment := h.attachment
  cases hatt : e.attachment with
  | none =>
    rw [hatt] at hattachment
    have hflag := hattachment.1
    simp only [fillDisplay, h.challenge.bytes, hformat, hflag, ne_eq, not_true_eq_false, if_false]
    refine ⟨_, rfl, ?_⟩
    simp only [Display.shown]
    rw [Display.setPair_take _ (by decide), Display.setPair_take _ (by decide),
      Display.setPair_take _ (by decide), Display.setPair_take _ (by decide),
      Display.setPair_take _ (by decide)]
    simp only [List.take_zero, List.nil_append, List.cons_append, List.map_cons, List.map_nil,
      Display.string, Display.setPair, hfrom, hto, hsubject, hbody, hrequest, Email.pairs, hatt,
      Option.elim_none, List.append_nil]
  | some att =>
    rw [hatt] at hattachment
    obtain ⟨hflag, hname, hsize, hhash⟩ := hattachment
    have hcopy := copy_field_cString (.fill (MAX_ATT_NAME_LEN + 1) 0) hname att.name.property.bounded
      (att.name.property.zero_not_mem (by decide))
    have htext := snprintf_cString d.g_attachment
      (Nat.le_trans (nameAndSize_length_le att.name.val att.size)
        (Nat.le_trans (Nat.add_le_add_right att.name.property.bounded 19) (by decide)))
      (zero_not_mem_nameAndSize (att.name.property.zero_not_mem (by decide)) att.size)
    obtain ⟨g_att_hash, hhex, hdigest⟩ := format_hex_eq_some att.hash.val d.g_att_hash
      (Nat.le_of_eq (by rw [att.hash.property]))
    have hpresent : (1 : UInt8) ≠ 0 := by decide
    simp only [fillDisplay, h.challenge.bytes, hformat, hflag, hpresent, ne_eq, not_false_eq_true, if_true,
      hcopy, hsize, Display.setPair_g_attachment, Display.setPair_g_att_hash, hhash.bytes, hhex]
    refine ⟨_, rfl, ?_⟩
    simp only [Display.shown]
    rw [Display.setPair_take _ (by decide), Display.setPair_take _ (by decide),
      Display.setPair_take _ (by decide), Display.setPair_take _ (by decide),
      Display.setPair_take _ (by decide), Display.setPair_take _ (by decide),
      Display.setPair_take _ (by decide)]
    simp only [List.take_zero, List.nil_append, List.cons_append, List.map_cons, List.map_nil,
      Display.string, Display.setPair, hfrom, hto, hsubject, hbody, hrequest, htext, hdigest,
      Email.pairs, hatt, Option.elim_some]

/-- With a parsed email in the context, the review that opens shows that email. -/
theorem ui_display_transaction_of_represents {s : AppState} {e : Email}
    (hreq : s.G_context.req_type = .CONFIRM_TRANSACTION) (hstate : s.G_context.state = .STATE_PARSED)
    (h : s.G_context.tx_info.transaction.Represents s.G_context.tx_info.raw_tx.toList e) :
    ∃ display, ui_display_transaction s =
      ({ s with display, screen := some (.email e.pairs) }, [.review (.email e.pairs)]) := by
  obtain ⟨display, hfill, hshown⟩ := fillDisplay_shown h s.display
  refine ⟨display, ?_⟩
  simp only [ui_display_transaction, hreq, hstate, ne_eq, not_true_eq_false, or_self, if_false, hfill,
    hshown]

/-- The review shows the pairs of the email that the structure represents, whatever the
display held before. -/
theorem review_of_represents {s : AppState} {e : Email} {review : Review}
    (h : s.G_context.tx_info.transaction.Represents s.G_context.tx_info.raw_tx.toList e)
    (hreview : .review review ∈ (ui_display_transaction s).2) : review = .email e.pairs := by
  by_cases hcheck : s.G_context.req_type ≠ .CONFIRM_TRANSACTION ∨ s.G_context.state ≠ .STATE_PARSED
  · simp [ui_display_transaction, hcheck, io_send_sw] at hreview
  · simp only [not_or, ne_eq, Decidable.not_not] at hcheck
    obtain ⟨display, hresult⟩ := ui_display_transaction_of_represents hcheck.1 hcheck.2 h
    rw [hresult] at hreview
    simpa using hreview

/-- The display is lossless. In any two states that hold accepted payloads, and
whatever the static data of the review held before, equal lists of pairs handed to
NBGL show equal payloads, each field of which they show in full. -/
theorem display_lossless {s t : AppState} (hs : s.G_context.Parsed) (ht : t.G_context.Parsed)
    {pairs : List (String × List UInt8)} (hshow : .review (.email pairs) ∈ (ui_display_transaction s).2)
    (hshow' : .review (.email pairs) ∈ (ui_display_transaction t).2) :
    s.G_context.payload = t.G_context.payload ∧
      ∃ e : Email, s.G_context.payload = e.wire ∧ pairs = e.pairs := by
  obtain ⟨e, hwire, -, hrep⟩ := hs.represents
  obtain ⟨e', hwire', -, hrep'⟩ := ht.represents
  have hpairs : pairs = e.pairs := Review.email.inj (review_of_represents hrep hshow)
  have hpairs' : pairs = e'.pairs := Review.email.inj (review_of_represents hrep' hshow')
  refine ⟨?_, e, hwire, hpairs⟩
  rw [hwire, hwire', Email.pairs_injective (hpairs.symm.trans hpairs')]

/-- The smallest email, parsed into a context and about to be displayed. -/
def AppState.smallestParsed (display : Display) : AppState :=
  { AppState.init with
    display
    G_context := { GlobalCtx.zero with
      state := .STATE_PARSED
      req_type := .CONFIRM_TRANSACTION
      tx_info := { GlobalCtx.zero.tx_info with
        raw_tx := GlobalCtx.zero.tx_info.raw_tx.blit 0 Email.smallest.wire
          (by rw [Email.smallest_wire_length]; decide)
        raw_tx_len := Email.smallest.wire.length
        transaction := deserialize.layout Email.smallest 0 } } }

/-- The smallest email is shown the same over a fresh display and over a stale one. -/
theorem smallest_display_lossless :
    (AppState.smallestParsed .zero).G_context.payload =
        (AppState.smallestParsed { Display.zero with g_from := .fill _ 0xff, nbPairs := 7 }).G_context.payload ∧
      ∃ e : Email, (AppState.smallestParsed .zero).G_context.payload = e.wire ∧ Email.smallest.pairs = e.pairs :=
  display_lossless (s := AppState.smallestParsed .zero)
    (t := AppState.smallestParsed { Display.zero with g_from := .fill _ 0xff, nbPairs := 7 })
    ⟨.zero, by decide +kernel, by decide +kernel⟩ ⟨.zero, by decide +kernel, by decide +kernel⟩
    (by decide +kernel) (by decide +kernel)

end hardmail
