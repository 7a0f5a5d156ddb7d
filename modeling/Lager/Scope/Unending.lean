import Lager.Scope.Reassembly
import Mathlib.Order.OrderIsoNat

/-!
# A reply that never ends

The loop of `read_whole_message` is bounded by the bytes it collects. Its inner loops are bounded however the device
answers, and no read leaves the buffer; but a transfer without data brings the bound no closer, and one after the other
may come without the end-of-message bit.
-/

namespace Lager.Scope.UsbTmc

variable {b : Bulk} {maxTransfer : Nat}

/-! ### No read leaves the buffer -/

theorem bulkIn_ok {link : Link} {buffer : List UInt8} {start : Nat} {r : Read}
    (h : bulkIn b link buffer start = .ok r) :
    ∃ bytes, b.bulkIn link.ins = some bytes ∧ r.got = (bytes.take (buffer.length - start)).length ∧
      r.buffer = writeAt buffer start (bytes.take (buffer.length - start)) ∧
      r.buffer.length = buffer.length ∧ start + r.got ≤ buffer.length ∧
      r.link = { link with ins := link.ins + 1 } := by
  unfold bulkIn at h
  split_ifs at h with hstart
  cases hin : b.bulkIn link.ins with
  | none => simp [hin] at h
  | some bytes =>
    simp only [hin, Except.ok.injEq] at h
    subst h
    have hfits : start + (bytes.take (buffer.length - start)).length ≤ buffer.length := by
      rw [List.length_take]
      omega
    exact ⟨bytes, rfl, rfl, rfl, length_writeAt hfits, hfits, rfl⟩

theorem bulkIn_ne_panic (link : Link) {buffer : List UInt8} {start : Nat} (h : start ≤ buffer.length) :
    bulkIn b link buffer start ≠ .error .panic := by
  unfold bulkIn
  rw [if_pos h]
  cases b.bulkIn link.ins with
  | none => simp
  | some bytes => simp

theorem bind_ne_panic {α : Type} (link : Link) (buffer : List UInt8) {next : Read → Except Failure α}
    (hnext : ∀ r, r.got ≤ r.buffer.length → next r ≠ .error .panic) :
    bulkIn b link buffer 0 >>= next ≠ .error .panic := by
  cases hread : bulkIn b link buffer 0 with
  | error e =>
    intro h
    exact bulkIn_ne_panic link (Nat.zero_le _) (hread.trans (by cases h; rfl))
  | ok r =>
    obtain ⟨_, -, -, -, hlength, hle, -⟩ := bulkIn_ok hread
    exact hnext r (by omega)

theorem awaitHeader_ne_panic (tag : UInt8) (left : Nat) : ∀ {r : Read}, r.got ≤ r.buffer.length →
    awaitHeader b tag left r ≠ .error .panic := by
  induction left with
  | zero =>
    intro r hgot
    rw [awaitHeader.eq_def]
    dsimp only
    rw [if_pos hgot]
    cases parseInHeader tag (r.buffer.take r.got) with
    | ok header => simp
    | error e => simp
  | succ left ih =>
    intro r hgot
    cases hparse : parseInHeader tag (r.buffer.take r.got) with
    | ok header =>
      rw [awaitHeader_found hgot hparse]
      simp
    | error e =>
      rw [awaitHeader_discard hgot (fun header hok => by simp [hparse] at hok)]
      exact bind_ne_panic r.link r.buffer fun r' hle => ih hle

/-- What a read from the start shows is what the device brought, as far as there is room. -/
theorem take_read {link : Link} {buffer bytes : List UInt8} {r : Read} (h : bulkIn b link buffer 0 = .ok r)
    (hbytes : b.bulkIn link.ins = some bytes) : r.buffer.take r.got = bytes.take buffer.length := by
  obtain ⟨bytes', hin, hgot, hbuffer, -⟩ := bulkIn_ok h
  rw [hbytes] at hin
  cases hin
  rw [hgot, hbuffer]
  simpa using @take_writeAt buffer (bytes.take (buffer.length - 0)) 0 (Nat.zero_le _)

/-- A read that shows a header. -/
theorem read_header {tag : UInt8} {link : Link} {buffer : List UInt8} {r : Read} {header : InHeader}
    (hroom : HEADER ≤ buffer.length) (hread : bulkIn b link buffer 0 = .ok r)
    (hparse : parseInHeader tag (r.buffer.take r.got) = .ok header) :
    ∃ first, Supplies b link.ins [first] ∧ parseInHeader tag first = .ok header ∧
      r.link = { link with ins := link.ins + 1 } ∧ r.buffer.length = buffer.length ∧ HEADER ≤ r.got ∧
      r.got ≤ buffer.length := by
  obtain ⟨first, hfirst, -, -, hlength, hle, hlink⟩ := bulkIn_ok hread
  have hlong := parseInHeader_ok_length hparse
  rw [List.length_take] at hlong
  rw [take_read hread hfirst] at hparse
  exact ⟨first, .cons hfirst (fun _ _ h => by cases h), (parseInHeader_take hroom first header).mp hparse, hlink,
    hlength, by omega, by omega⟩

/-- The header has come after at most as many other reads as may be discarded. -/
theorem awaitHeader_ok {tag : UInt8} {header : InHeader} {r : Read} (left : Nat) :
    ∀ {link : Link} {buffer : List UInt8}, HEADER ≤ buffer.length →
      (bulkIn b link buffer 0 >>= awaitHeader b tag left) = .ok (header, r) →
      ∃ stale first, stale.length ≤ left ∧ (∀ bytes ∈ stale, NotHeader tag bytes) ∧
        Supplies b link.ins (stale ++ [first]) ∧ parseInHeader tag first = .ok header ∧
        r.link = { link with ins := link.ins + stale.length + 1 } ∧ r.buffer.length = buffer.length ∧
        HEADER ≤ r.got ∧ r.got ≤ buffer.length := by
  induction left with
  | zero =>
    intro link buffer hroom h
    cases hread : bulkIn b link buffer 0 with
    | error e =>
      rw [hread] at h
      cases h
    | ok r₀ =>
      rw [hread] at h
      replace h : awaitHeader b tag 0 r₀ = .ok (header, r) := h
      obtain ⟨bytes, -, -, -, hlength, hle, -⟩ := bulkIn_ok hread
      have hgot : r₀.got ≤ r₀.buffer.length := by omega
      cases hparse : parseInHeader tag (r₀.buffer.take r₀.got) with
      | ok header₀ =>
        rw [awaitHeader_found hgot hparse] at h
        cases h
        obtain ⟨first, hfirst⟩ := read_header hroom hread hparse
        exact ⟨[], first, Nat.zero_le _, fun _ hmem => (List.not_mem_nil hmem).elim, hfirst⟩
      | error e =>
        rw [awaitHeader.eq_def] at h
        simp [hgot, hparse] at h
  | succ left ih =>
    intro link buffer hroom h
    cases hread : bulkIn b link buffer 0 with
    | error e =>
      rw [hread] at h
      cases h
    | ok r₀ =>
      rw [hread] at h
      replace h : awaitHeader b tag (left + 1) r₀ = .ok (header, r) := h
      obtain ⟨bytes, hbytes, hcount, -, hlength, hle, hlink⟩ := bulkIn_ok hread
      have hgot : r₀.got ≤ r₀.buffer.length := by omega
      cases hparse : parseInHeader tag (r₀.buffer.take r₀.got) with
      | ok header₀ =>
        rw [awaitHeader_found hgot hparse] at h
        cases h
        obtain ⟨first, hfirst⟩ := read_header hroom hread hparse
        exact ⟨[], first, Nat.zero_le _, fun _ hmem => (List.not_mem_nil hmem).elim, hfirst⟩
      | error e =>
        have hno : NotHeader tag (r₀.buffer.take r₀.got) := fun x hok => by simp [hparse] at hok
        rw [awaitHeader_discard hgot hno] at h
        obtain ⟨stale, first, hfew, hnot, hsupplies, hfirst, hlink', hlength', hmin, hmax⟩ := ih (by omega) h
        rw [hlink] at hsupplies hlink'
        refine ⟨bytes :: stale, first, by simpa using hfew, ?_, .cons hbytes hsupplies, hfirst, ?_, by omega, hmin,
          by omega⟩
        · refine List.forall_mem_cons.mpr ⟨fun x hok => hno x ?_, hnot⟩
          rw [take_read hread hbytes]
          exact (parseInHeader_take hroom bytes x).mpr hok
        · have hcount : link.ins + 1 + stale.length + 1 = link.ins + (stale.length + 1) + 1 := by omega
          rw [hlink', List.length_cons, ← hcount]

/-- The packet loop stays in the buffer, and has read nothing where nothing was announced. -/
theorem fill_in_buffer (packet length : Nat) (have_ last : Nat) (buffer : List UInt8) (link : Link)
    (h : HEADER + have_ ≤ buffer.length) :
    fill b packet length have_ last buffer link ≠ .error .panic ∧
      ∀ have' buffer' link', fill b packet length have_ last buffer link = .ok (have', buffer', link') →
        buffer'.length = buffer.length ∧ HEADER + have' ≤ buffer.length ∧ (length = 0 → link' = link) := by
  induction have_, last, buffer, link using fill.induct b packet length with
  | case1 have_ last buffer link hmore r hread ih =>
    obtain ⟨bytes, -, -, -, hlength, hle, -⟩ := bulkIn_ok hread
    rw [fill, if_pos hmore, hread]
    dsimp only
    obtain ⟨hpanic, hok⟩ := ih (by omega)
    refine ⟨hpanic, fun have' buffer' link' heq => ?_⟩
    obtain ⟨h1, h2, -⟩ := hok have' buffer' link' heq
    exact ⟨by omega, by omega, fun hzero => by omega⟩
  | case2 have_ last buffer link hmore e hread =>
    rw [fill, if_pos hmore, hread]
    refine ⟨fun heq => ?_, fun _ _ _ heq => by cases heq⟩
    exact bulkIn_ne_panic link h (hread.trans (by cases heq; rfl))
  | case3 have_ last buffer link hdone =>
    rw [fill, if_neg hdone]
    refine ⟨by simp, fun have' buffer' link' heq => ?_⟩
    cases heq
    exact ⟨rfl, h, fun _ => rfl⟩

theorem finishTransfer_spec {packet : Nat} {into : List UInt8} {header : InHeader} {r : Read} (hmin : HEADER ≤ r.got)
    (hmax : r.got ≤ r.buffer.length) :
    finishTransfer b packet into header r ≠ .error .panic ∧
      ∀ endOfMessage message link, finishTransfer b packet into header r = .ok (endOfMessage, message, link) →
        endOfMessage = header.endOfMessage ∧ (header.length = 0 → link = r.link) ∧
        ∃ data, message = into ++ data ∧ data.length = header.length := by
  obtain ⟨hpanic, hok⟩ := fill_in_buffer (b := b) packet header.length (r.got - HEADER) r.got r.buffer r.link (by omega)
  unfold finishTransfer
  rw [if_neg (Nat.not_lt.mpr hmin)]
  cases hfill : fill b packet header.length (r.got - HEADER) r.got r.buffer r.link with
  | error e =>
    dsimp only
    exact ⟨fun h => hpanic (hfill.trans (by cases h; rfl)), fun _ _ _ h => by cases h⟩
  | ok v =>
    obtain ⟨have_, buffer, link⟩ := v
    obtain ⟨hlength, hle, hlink⟩ := hok have_ buffer link hfill
    dsimp only
    by_cases hshort : have_ < header.length
    · rw [if_pos hshort]
      exact ⟨by simp, fun _ _ _ h => by cases h⟩
    · have hroom : ¬ buffer.length < HEADER + header.length := by omega
      rw [if_neg hshort, if_neg hroom]
      refine ⟨by simp, fun endOfMessage message link' h => ?_⟩
      cases h
      exact ⟨rfl, hlink, _, rfl, Lager.Lib.length_sub (by omega)⟩

theorem readTransfer_ne_panic (link : Link) (into : List UInt8) :
    readTransfer b maxTransfer link into ≠ .error .panic := by
  unfold readTransfer
  by_cases hout : b.bulkOut link.outs = true
  · rw [if_pos hout]
    dsimp only
    have hpanic := bind_ne_panic (b := b) { link with tag := nextTag link.tag, outs := link.outs + 1 }
      (List.replicate (HEADER + maxTransfer + max b.maxPacket 64) 0)
      fun r hle => awaitHeader_ne_panic (b := b) (nextTag link.tag) MAX_DISCARDED_READS hle
    cases hanswer : bulkIn b { link with tag := nextTag link.tag, outs := link.outs + 1 }
        (List.replicate (HEADER + maxTransfer + max b.maxPacket 64) 0) 0 >>=
        awaitHeader b (nextTag link.tag) MAX_DISCARDED_READS with
    | error e =>
      intro h
      exact hpanic (hanswer.trans (by cases h; rfl))
    | ok v =>
      obtain ⟨header, r⟩ := v
      obtain ⟨_, _, -, -, -, -, -, hlength, hmin, hmax⟩ :=
        awaitHeader_ok _ (by rw [List.length_replicate]; omega) hanswer
      exact (finishTransfer_spec hmin (by omega)).1
  · rw [if_neg hout]
    simp

/-! ### Transfers without data -/

/-- The answer to a request: a header that announces nothing and does not end the message, after at most as many other
reads as are discarded. -/
def EmptyAnswer (b : Bulk) (link link' : Link) : Prop :=
  b.bulkOut link.outs = true ∧ ∃ stale first, stale.length ≤ MAX_DISCARDED_READS ∧
    (∀ bytes ∈ stale, NotHeader (nextTag link.tag) bytes) ∧ Supplies b link.ins (stale ++ [first]) ∧
    parseInHeader (nextTag link.tag) first = .ok ⟨0, false⟩ ∧
    link' = ⟨nextTag link.tag, link.outs + 1, link.ins + stale.length + 1⟩

theorem EmptyAnswer.read {link link' : Link} (h : EmptyAnswer b link link') (into : List UInt8) :
    readTransfer b maxTransfer link into = .ok (false, into, link') := by
  obtain ⟨hout, stale, first, hfew, hnot, hsupplies, hfirst, rfl⟩ := h
  obtain ⟨buffer, hawait, hlength, -⟩ := awaitHeader_eq hfirst stale MAX_DISCARDED_READS
    { link with tag := nextTag link.tag, outs := link.outs + 1 }
    (List.replicate (HEADER + maxTransfer + max b.maxPacket 64) 0) hfew hnot (by rw [List.length_replicate]; omega)
    hsupplies
  rw [List.length_replicate] at hawait hlength
  have hlong := parseInHeader_ok_length hfirst
  unfold readTransfer
  rw [if_pos hout]
  dsimp only
  rw [hawait]
  dsimp only
  unfold finishTransfer
  have hgot : HEADER ≤ (first.take (HEADER + maxTransfer + max b.maxPacket 64)).length := by
    rw [List.length_take]
    omega
  have hroom : HEADER + 0 ≤ buffer.length := by omega
  rw [if_neg (Nat.not_lt.mpr hgot), fill, if_neg fun h => Nat.not_lt_zero _ h.1]
  dsimp only
  rw [if_neg (Nat.not_lt_zero _), if_neg (Nat.not_lt.mpr hroom)]
  simp [Lager.Lib.sub]

/-- A transfer extends what has been collected, or is such an answer, or ends the message. -/
theorem readTransfer_ok {link link' : Link} {into message : List UInt8} {endOfMessage : Bool}
    (h : readTransfer b maxTransfer link into = .ok (endOfMessage, message, link')) :
    into.length ≤ message.length ∧
      (endOfMessage = false → message.length = into.length → message = into ∧ EmptyAnswer b link link') := by
  unfold readTransfer at h
  by_cases hout : b.bulkOut link.outs = true
  · rw [if_pos hout] at h
    dsimp only at h
    cases hanswer : bulkIn b { link with tag := nextTag link.tag, outs := link.outs + 1 }
        (List.replicate (HEADER + maxTransfer + max b.maxPacket 64) 0) 0 >>=
        awaitHeader b (nextTag link.tag) MAX_DISCARDED_READS with
    | error e =>
      rw [hanswer] at h
      cases h
    | ok v =>
      obtain ⟨header, r⟩ := v
      rw [hanswer] at h
      obtain ⟨stale, first, hfew, hnot, hsupplies, hfirst, hlink, hlength, hmin, hmax⟩ :=
        awaitHeader_ok _ (by rw [List.length_replicate]; omega) hanswer
      obtain ⟨hend, hsame, data, rfl, hdata⟩ := (finishTransfer_spec hmin (by omega)).2 _ _ _ h
      refine ⟨by simp, fun hfalse hcount => ?_⟩
      have hzero : data.length = 0 := by
        rw [List.length_append] at hcount
        omega
      rw [hdata] at hzero
      refine ⟨by rw [List.length_eq_zero_iff.mp (hdata.trans hzero), List.append_nil], hout, stale, first, hfew, hnot,
        hsupplies, ?_, (hsame hzero).trans hlink⟩
      rw [hfirst, ← hzero, ← hfalse, hend]
  · rw [if_neg hout] at h
    cases h

/-! ### When the loop returns -/

/-- The link and the message after `n` transfers that have been read and have not ended it. -/
def unended (b : Bulk) (maxTransfer : Nat) : Nat → Link → List UInt8 → Option (Link × List UInt8)
  | 0, link, message => some (link, message)
  | n + 1, link, message =>
    if message.length < MAX_MESSAGE_BYTES then
      match readTransfer b maxTransfer link message with
      | .ok (false, message, link) => unended b maxTransfer n link message
      | _ => none
    else none

-- the equations of `unended`, for all the lemmas below
section
attribute [local simp] unended
end

/-- From this link on every request gets an answer without data, for good. -/
def EmptyForever (b : Bulk) (link : Link) : Prop :=
  ∃ links : Nat → Link, links 0 = link ∧ ∀ k, EmptyAnswer b (links k) (links (k + 1))

/-- The loop comes, with room for more, to a link from which the device sends nothing but empty answers. -/
def Held (b : Bulk) (maxTransfer : Nat) (link : Link) : Prop :=
  ∃ n link' message, unended b maxTransfer n link [] = some (link', message) ∧ message.length < MAX_MESSAGE_BYTES ∧
    EmptyForever b link'

theorem readWholeMessage_unended {n : Nat} : ∀ {link link' : Link} {message message' : List UInt8},
    unended b maxTransfer n link message = some (link', message') → ∀ fuel,
      readWholeMessage b maxTransfer (fuel + n) link message = readWholeMessage b maxTransfer fuel link' message' := by
  induction n with
  | zero =>
    intro link link' message message' h fuel
    cases h
    rfl
  | succ n ih =>
    intro link link' message message' h fuel
    rw [unended] at h
    split_ifs at h with hlen
    rw [← Nat.add_assoc, readWholeMessage, if_pos hlen]
    cases hread : readTransfer b maxTransfer link message with
    | error e => simp [hread] at h
    | ok v =>
      obtain ⟨endOfMessage, message₁, link₁⟩ := v
      cases endOfMessage with
      | true => simp [hread] at h
      | false =>
        rw [hread] at h
        exact ih h fuel

theorem unended_succ {n : Nat} : ∀ {link link' : Link} {message message' : List UInt8},
    unended b maxTransfer n link message = some (link', message') →
      unended b maxTransfer (n + 1) link message = unended b maxTransfer 1 link' message' := by
  induction n with
  | zero =>
    intro link link' message message' h
    cases h
    rfl
  | succ n ih =>
    intro link link' message message' h
    rw [unended] at h ⊢
    split_ifs at h ⊢ with hlen
    cases hread : readTransfer b maxTransfer link message with
    | error e => simp [hread] at h
    | ok v =>
      obtain ⟨endOfMessage, message₁, link₁⟩ := v
      cases endOfMessage with
      | true => simp [hread] at h
      | false =>
        rw [hread] at h
        exact ih h

/-- With nothing but empty answers no fuel is enough. -/
theorem EmptyForever.not_returns {link : Link} {message : List UInt8} (h : EmptyForever b link)
    (hlen : message.length < MAX_MESSAGE_BYTES) (fuel : Nat) :
    readWholeMessage b maxTransfer fuel link message = none := by
  obtain ⟨links, rfl, hlinks⟩ := h
  have hall : ∀ k, readWholeMessage b maxTransfer fuel (links k) message = none := by
    induction fuel with
    | zero => intro k; rfl
    | succ fuel ih =>
      intro k
      rw [readWholeMessage, if_pos hlen, (hlinks k).read message]
      exact ih (k + 1)
  exact hall 0

/-- A loop that has not returned has read another transfer without its end, with room for more. -/
theorem unended_of_not_returns {link : Link} (h : ∀ fuel, readWholeMessage b maxTransfer fuel link [] = none)
    (n : Nat) : ∃ link' message, unended b maxTransfer n link [] = some (link', message) ∧
      message.length < MAX_MESSAGE_BYTES := by
  have hroom : ∀ {n link' message}, unended b maxTransfer n link [] = some (link', message) →
      message.length < MAX_MESSAGE_BYTES := by
    intro n link' message hn
    by_contra hlen
    have := h (1 + n)
    rw [readWholeMessage_unended hn, readWholeMessage, if_neg hlen] at this
    cases this
  induction n with
  | zero =>
    have hn : unended b maxTransfer 0 link [] = some (link, []) := rfl
    exact ⟨link, [], hn, hroom hn⟩
  | succ n ih =>
    obtain ⟨link', message, hn, hlen⟩ := ih
    have hnone := h (1 + n)
    rw [readWholeMessage_unended hn, readWholeMessage, if_pos hlen] at hnone
    cases hread : readTransfer b maxTransfer link' message with
    | error e => simp [hread] at hnone
    | ok v =>
      obtain ⟨endOfMessage, message₁, link₁⟩ := v
      cases endOfMessage with
      | true => simp [hread] at hnone
      | false =>
        have hone : unended b maxTransfer 1 link' message = some (link₁, message₁) := by
          rw [unended, if_pos hlen, hread]
          rfl
        have hnext := (unended_succ hn).trans hone
        exact ⟨link₁, message₁, hnext, hroom hnext⟩

theorem unended_step {link link' link'' : Link} {message message' : List UInt8} {n : Nat}
    (h : unended b maxTransfer n link [] = some (link', message))
    (h' : unended b maxTransfer (n + 1) link [] = some (link'', message')) :
    message.length ≤ message'.length ∧ (message'.length = message.length → EmptyAnswer b link' link'') := by
  rw [unended_succ h, unended] at h'
  split_ifs at h'
  cases hread : readTransfer b maxTransfer link' message with
  | error e => simp [hread] at h'
  | ok v =>
    obtain ⟨endOfMessage, message₁, link₁⟩ := v
    cases endOfMessage with
    | true => simp [hread] at h'
    | false =>
      rw [hread] at h'
      cases h'
      obtain ⟨hle, hempty⟩ := readTransfer_ok hread
      exact ⟨hle, fun heq => (hempty rfl heq).2⟩

/-- The bytes collected stop growing, and from there on every answer is empty. -/
theorem held_of_not_returns {link : Link} (h : ∀ fuel, readWholeMessage b maxTransfer fuel link [] = none) :
    Held b maxTransfer link := by
  choose links messages hunended hlen using unended_of_not_returns h
  have hstep := fun n => unended_step (hunended n) (hunended (n + 1))
  let collected : ℕ →o Fin MAX_MESSAGE_BYTES :=
    ⟨fun n => ⟨(messages n).length, hlen n⟩, monotone_nat_of_le_succ fun n => (hstep n).1⟩
  obtain ⟨n, hn⟩ := WellFoundedGT.monotone_chain_condition collected
  have hsame : ∀ k, (messages (n + k)).length = (messages n).length := fun k =>
    (congrArg Fin.val (hn (n + k) (Nat.le_add_right n k))).symm
  refine ⟨n, links n, messages n, hunended n, hlen n, fun k => links (n + k), rfl, fun k => ?_⟩
  refine (hstep (n + k)).2 ?_
  rw [Nat.add_assoc, hsame, hsame]

theorem readWholeMessage_ne_panic (fuel : Nat) : ∀ (link : Link) (message : List UInt8),
    readWholeMessage b maxTransfer fuel link message ≠ some (.error .panic) := by
  induction fuel with
  | zero => intro link message; simp [readWholeMessage]
  | succ fuel ih =>
    intro link message
    rw [readWholeMessage]
    split_ifs with hlen
    · cases hread : readTransfer b maxTransfer link message with
      | error e =>
        intro h
        exact readTransfer_ne_panic link message (hread.trans (by cases h; rfl))
      | ok v =>
        obtain ⟨endOfMessage, message', link'⟩ := v
        cases endOfMessage with
        | true => simp
        | false => exact ih link' message'
    · simp

/-- **A reply is read to its end or given up, and no read leaves the buffer**, unless the device comes to send nothing
but empty answers. -/
theorem readWholeMessage_returns (b : Bulk) (maxTransfer : Nat) (link : Link) :
    ((∃ fuel r, readWholeMessage b maxTransfer fuel link [] = some r) ∧
      ∀ fuel, readWholeMessage b maxTransfer fuel link [] ≠ some (.error .panic)) ↔
    ¬ Held b maxTransfer link := by
  constructor
  · rintro ⟨⟨fuel, r, hreturns⟩, -⟩ ⟨n, link', message, hn, hlen, hforever⟩
    have hmore := readWholeMessage_mono hreturns (Nat.le_add_right fuel n)
    rw [readWholeMessage_unended hn, hforever.not_returns hlen] at hmore
    cases hmore
  · intro hheld
    constructor
    · by_contra hnever
      refine hheld (held_of_not_returns fun fuel => ?_)
      cases hreturns : readWholeMessage b maxTransfer fuel link [] with
      | none => rfl
      | some r => exact absurd ⟨fuel, r, hreturns⟩ hnever
    · exact fun fuel => readWholeMessage_ne_panic fuel link []

def tagAt : Nat → UInt8
  | 0 => fresh.tag
  | n + 1 => nextTag (tagAt n)

/-- A device that answers every request of a fresh link with a header and nothing else. -/
def onlyHeaders : Bulk := ⟨fun _ => true, fun n => some (inHeader (tagAt (n + 1)) 0 false), 64⟩

/-- It never times out, and the loop never returns. -/
theorem onlyHeaders_hold :
    (∀ n, (onlyHeaders.bulkIn n).isSome) ∧
      ¬ ∃ fuel r, readWholeMessage onlyHeaders READ_CHUNK fuel fresh [] = some r := by
  refine ⟨fun _ => rfl, ?_⟩
  rintro ⟨fuel, r, hreturns⟩
  have hforever : EmptyForever onlyHeaders fresh := by
    refine ⟨fun k => ⟨tagAt k, k, k⟩, rfl, fun k => ⟨rfl, [], inHeader (tagAt (k + 1)) 0 false, Nat.zero_le _,
      fun _ h => (List.not_mem_nil h).elim, ?_, parseInHeader_inHeader (by decide) _ false, rfl⟩⟩
    exact Supplies.cons rfl fun _ _ h => by cases h
  rw [hforever.not_returns (by decide)] at hreturns
  cases hreturns

end Lager.Scope.UsbTmc
