import Lager.Lib.Fold
import Lager.Wire.Channel
import Mathlib.Data.List.Infix
import Mathlib.Data.List.TakeWhile

/-!
# What comes out of the output channel

Between two chunks the parser is waiting for the rest of a header (`Resting`): then it goes on as if it had been given
the bytes of the header at once. It never waits for the rest of a payload. So a chunk that ends inside a payload is
one that `receive` does not return from, and whatever the split, the objects are delivered exactly when no chunk but
the last ends there and every length written is the length of what follows it (`delivers_iff`).
-/

namespace Lager.Wire

open Lager.Py

variable {ω : Type} {codec : Codec ω}

/-! ### The loop -/

/-- The loop ends, after it has yielded these. -/
def Parses (codec : Codec ω) (h : Handler) (objs : List (Obj ω)) (h' : Handler) : Prop :=
  ∃ fuel, h.parse codec fuel = some ⟨objs, .ok h'⟩

theorem parse_succ {fuel : Nat} {h : Handler} {r : Yielded ω} (hr : h.parse codec fuel = some r) :
    h.parse codec (fuel + 1) = some r := by
  induction fuel generalizing h r with
  | zero => cases hr
  | succ fuel ih =>
    rw [Handler.parse] at hr ⊢
    split at hr
    · exact hr
    · exact hr
    · obtain ⟨r', hr', rfl⟩ := Option.map_eq_some_iff.mp hr
      rw [ih hr']
      rfl

theorem parse_add {fuel : Nat} {h : Handler} {r : Yielded ω} (hr : h.parse codec fuel = some r) (k : Nat) :
    h.parse codec (fuel + k) = some r := by
  induction k with
  | zero => exact hr
  | succ k ih => exact parse_succ ih

theorem Parses.unique {h h₁ h₂ : Handler} {objs₁ objs₂ : List (Obj ω)} (hp₁ : Parses codec h objs₁ h₁)
    (hp₂ : Parses codec h objs₂ h₂) : objs₁ = objs₂ ∧ h₁ = h₂ := by
  obtain ⟨fuel₁, hr₁⟩ := hp₁
  obtain ⟨fuel₂, hr₂⟩ := hp₂
  have hsame := parse_add hr₁ fuel₂
  rw [Nat.add_comm, parse_add hr₂ fuel₁] at hsame
  cases hsame
  exact ⟨rfl, rfl⟩

theorem parses_congr {h₁ h₂ : Handler} (hturn : h₁.turn codec = h₂.turn codec) {objs : List (Obj ω)} {h' : Handler}
    (hp : Parses codec h₁ objs h') : Parses codec h₂ objs h' := by
  obtain ⟨fuel, hr⟩ := hp
  cases fuel with
  | zero => cases hr
  | succ fuel =>
    refine ⟨fuel + 1, ?_⟩
    rw [Handler.parse] at hr ⊢
    rwa [← hturn]

theorem parses_stop {h h' : Handler} (hturn : h.turn codec = .ok (.stop h')) : Parses codec h [] h' :=
  ⟨1, by rw [Handler.parse, hturn]⟩

theorem parses_again {h h₁ h' : Handler} {obj : Obj ω} (hturn : h.turn codec = .ok (.again h₁ (some obj)))
    {objs : List (Obj ω)} : Parses codec h objs h' ↔ ∃ rest, objs = obj :: rest ∧ Parses codec h₁ rest h' := by
  constructor
  · rintro ⟨fuel, hr⟩
    cases fuel with
    | zero => cases hr
    | succ fuel =>
      rw [Handler.parse, hturn] at hr
      obtain ⟨⟨rest, ended⟩, hr', heq⟩ := Option.map_eq_some_iff.mp hr
      cases heq
      exact ⟨rest, rfl, fuel, hr'⟩
  · rintro ⟨rest, rfl, fuel, hr⟩
    refine ⟨fuel + 1, ?_⟩
    rw [Handler.parse, hturn]
    simp [hr]

/-- A turn that changes nothing and yields nothing is taken for ever. -/
theorem not_parses_spin {h h' : Handler} (hturn : h.turn codec = .ok (.again h none)) {objs : List (Obj ω)} :
    ¬ Parses codec h objs h' := by
  rintro ⟨fuel, hr⟩
  induction fuel generalizing objs with
  | zero => cases hr
  | succ fuel ih =>
    rw [Handler.parse, hturn] at hr
    obtain ⟨⟨rest, ended⟩, hr', heq⟩ := Option.map_eq_some_iff.mp hr
    cases heq
    exact ih hr'

theorem not_parses_again_spin {h h₁ h' : Handler} (hturn : h.turn codec = .ok (.again h₁ none))
    (hspin : h₁.turn codec = .ok (.again h₁ none)) {objs : List (Obj ω)} : ¬ Parses codec h objs h' := by
  rintro ⟨fuel, hr⟩
  cases fuel with
  | zero => cases hr
  | succ fuel =>
    rw [Handler.parse, hturn] at hr
    obtain ⟨⟨rest, ended⟩, hr', heq⟩ := Option.map_eq_some_iff.mp hr
    cases heq
    exact not_parses_spin hspin ⟨fuel, hr'⟩

theorem not_parses_error {h h' : Handler} {e : PyErr} (hturn : h.turn codec = .error e) {objs : List (Obj ω)} :
    ¬ Parses codec h objs h' := by
  rintro ⟨fuel, hr⟩
  cases fuel with
  | zero => cases hr
  | succ fuel =>
    rw [Handler.parse, hturn] at hr
    cases hr

/-! ### Headers -/

theorem splitSpace_none {buffer : Bytes} (h : (32 : UInt8) ∉ buffer) : splitSpace buffer = none := by
  have hall : buffer.dropWhile (· ≠ 32) = [] := by
    rw [List.dropWhile_eq_nil_iff]
    intro b hb
    simp only [ne_eq, decide_not, Bool.not_eq_true', decide_eq_false_iff_not]
    rintro rfl
    exact h hb
  rw [splitSpace, hall]

theorem splitSpace_append {field : Bytes} (h : (32 : UInt8) ∉ field) (rest : Bytes) :
    splitSpace (field ++ 32 :: rest) = some (field, rest) := by
  have hne : ∀ b ∈ field, decide (b ≠ 32) = true := by
    intro b hb
    simp only [ne_eq, decide_not, Bool.not_eq_true', decide_eq_false_iff_not]
    rintro rfl
    exact h hb
  have hdrop : (field ++ 32 :: rest).dropWhile (· ≠ 32) = 32 :: rest := by
    rw [List.dropWhile_append_of_pos hne]
    rfl
  have htake : (field ++ 32 :: rest).takeWhile (· ≠ 32) = field := by
    rw [List.takeWhile_append_of_pos hne]
    simp
  rw [splitSpace, hdrop, htake]

theorem encode_cons (c : Char) (text : List Char) : encode (c :: text) = encode [c] ++ encode text := by
  simp [encode]

/-- A field of digits reads back as it was written. -/
theorem encode_digits {text : List Char} (h : ∀ c ∈ text, 45 ≤ c.toNat ∧ c.toNat ≤ 57) :
    (∀ b ∈ encode text, 45 ≤ b.toNat ∧ b.toNat ≤ 57) ∧ (encode text).map (fun b => Char.ofNat b.toNat) = text := by
  induction text with
  | nil => exact ⟨by simp [encode], rfl⟩
  | cons c text ih =>
    obtain ⟨hbytes, hchars⟩ := ih fun d hd => h d (List.mem_cons_of_mem _ hd)
    have hc := h c List.mem_cons_self
    have hone : encode [c] = [c.toNat.toUInt8] := encode_ascii (by omega)
    have hval : c.toNat.toUInt8.toNat = c.toNat := toNat_toUInt8 (by omega)
    rw [encode_cons, hone]
    refine ⟨fun b hb => ?_, ?_⟩
    · rcases List.mem_cons.mp hb with rfl | hb
      · rw [hval]
        exact hc
      · exact hbytes b hb
    · rw [List.singleton_append, List.map_cons, hchars, hval, Char.ofNat_toNat]

theorem intOfField_textOfInt (n : Int) : intOfField (encode (textOfInt n)) = .ok n := by
  obtain ⟨hbytes, hchars⟩ := encode_digits (fun _ hc => mem_textOfInt (n := n) hc)
  have hascii : (encode (textOfInt n)).any (fun b => b ≥ 128 || (28 ≤ b && b ≤ 31)) = false := by
    rw [List.any_eq_false]
    intro b hb
    have hrange := hbytes b hb
    simp only [ge_iff_le, Bool.or_eq_true, decide_eq_true_eq, Bool.and_eq_true, UInt8.le_iff_toNat_le, not_or, not_and]
    have h128 : (128 : UInt8).toNat = 128 := rfl
    have h31 : (31 : UInt8).toNat = 31 := rfl
    omega
  rw [intOfField, hascii, hchars, intOfText_textOfInt]
  rfl

theorem space_notMem_textOfInt (n : Int) : (32 : UInt8) ∉ encode (textOfInt n) := by
  intro h
  have hrange := (encode_digits (fun _ hc => mem_textOfInt (n := n) hc)).1 32 h
  have h32 : (32 : UInt8).toNat = 32 := rfl
  omega

/-! ### One message -/

/-- A handler that has read nothing of what it holds. -/
def fresh (buffer : Bytes) : Handler := ⟨none, none, buffer⟩

/-- The handler waits for the rest of a header, of which it was given these bytes. -/
inductive Resting : Handler → Bytes → Prop
  | encoder {x : Bytes} (hx : (32 : UInt8) ∉ x) : Resting (fresh x) x
  | len {encoder : Int} {x : Bytes} (hx : (32 : UInt8) ∉ x) :
      Resting ⟨some encoder, none, x⟩ (encode (textOfInt encoder) ++ 32 :: x)

theorem readEncoder_fresh (encoder : Int) (rest : Bytes) :
    (fresh (encode (textOfInt encoder) ++ 32 :: rest)).readEncoder =
      .ok (some (encoder, ⟨some encoder, none, rest⟩)) := by
  simp [Handler.readEncoder, fresh, splitSpace_append (space_notMem_textOfInt encoder), intOfField_textOfInt, Except.map]

/-- A handler that waits goes on as if it were given the whole header now. -/
theorem Resting.turn {h : Handler} {x : Bytes} (hrest : Resting h x) (chunk : Bytes) :
    Handler.turn codec { h with buffer := h.buffer ++ chunk } = Handler.turn codec (fresh (x ++ chunk)) := by
  cases hrest with
  | encoder hx => rfl
  | @len encoder y hy =>
    have hread := readEncoder_fresh encoder (y ++ chunk)
    have hsame : Handler.readEncoder ⟨some encoder, none, y ++ chunk⟩ =
        .ok (some (encoder, ⟨some encoder, none, y ++ chunk⟩)) := rfl
    rw [List.append_assoc, List.cons_append, Handler.turn, Handler.turn, hread, hsame]

theorem Resting.parses {h h' : Handler} {x : Bytes} (hrest : Resting h x) (chunk : Bytes) {objs : List (Obj ω)} :
    Receives codec h chunk objs h' ↔ Parses codec (fresh (x ++ chunk)) objs h' :=
  ⟨parses_congr (hrest.turn chunk), parses_congr (hrest.turn chunk).symm⟩

theorem head_eq (m : Message ω) :
    m.head = encode (textOfInt m.encoder) ++ 32 :: (encode (textOfNat m.len) ++ [32]) := by
  simp only [Message.head, header, encode, List.flatMap_append, List.flatMap_cons, List.append_assoc]
  rfl

theorem textOfNat_eq (n : Nat) : textOfNat n = textOfInt n := by
  rw [textOfInt, if_neg (by omega), Int.natAbs_natCast]

theorem readLen_head (encoder : Int) (len : Nat) (rest : Bytes) :
    Handler.readLen ⟨some encoder, none, encode (textOfNat len) ++ 32 :: rest⟩ =
      .ok (some ((len : Int), ⟨some encoder, some (len : Int), rest⟩)) := by
  rw [textOfNat_eq]
  simp [Handler.readLen, splitSpace_append (space_notMem_textOfInt len), intOfField_textOfInt, Except.map]

/-- What the loop does once a header is complete. -/
theorem turn_head (m : Message ω) (rest : Bytes) :
    (fresh (m.head ++ rest)).turn codec =
      if m.len ≤ rest.length then
        (decoded codec m.encoder (rest.take m.len)).map fun obj => .again (fresh (rest.drop m.len)) (some obj)
      else .ok (.again ⟨some m.encoder, some (m.len : Int), rest⟩ none) := by
  have hhead : m.head ++ rest = encode (textOfInt m.encoder) ++ 32 :: (encode (textOfNat m.len) ++ 32 :: rest) := by
    rw [head_eq]
    simp
  have hcut : cutAt rest (m.len : Int) = m.len := by
    rw [cutAt, if_pos (by omega), Int.toNat_natCast]
  rw [hhead, Handler.turn, readEncoder_fresh]
  simp only [readLen_head, hcut, Int.ofNat_le]
  rfl

/-- The payload is not complete: the loop goes round for ever. -/
theorem turn_short {encoder : Int} {len : Nat} {rest : Bytes} (h : rest.length < len) :
    Handler.turn codec ⟨some encoder, some (len : Int), rest⟩ =
      .ok (.again ⟨some encoder, some (len : Int), rest⟩ none) := by
  have hlt : ¬ (len : Int) ≤ (rest.length : Int) := by omega
  simp [Handler.turn, Handler.readEncoder, Handler.readLen, hlt]

theorem not_parses_short {m : Message ω} {rest : Bytes} (h : rest.length < m.len) {objs : List (Obj ω)} {h' : Handler} :
    ¬ Parses codec (fresh (m.head ++ rest)) objs h' := by
  have hturn : (fresh (m.head ++ rest)).turn codec = .ok (.again ⟨some m.encoder, some (m.len : Int), rest⟩ none) := by
    rw [turn_head, if_neg (by omega)]
  exact not_parses_again_spin hturn (turn_short h)

/-- A header that is not complete is waited for. -/
theorem parses_partial {m : Message ω} {y more : Bytes} (h : y ++ more = m.head) (hmore : more ≠ []) :
    ∃ h', Parses codec (fresh y) [] h' ∧ Resting h' y := by
  have hstop : (32 : UInt8) ∉ y → ∃ h', Parses codec (fresh y) [] h' ∧ Resting h' y := by
    intro hy
    refine ⟨fresh y, parses_stop ?_, .encoder hy⟩
    simp [Handler.turn, Handler.readEncoder, fresh, splitSpace_none hy]
  have hencoder := space_notMem_textOfInt m.encoder
  rw [head_eq, List.append_eq_append_iff] at h
  rcases h with ⟨a, ha, -⟩ | ⟨a, rfl, ha⟩
  · refine hstop fun hy => hencoder ?_
    rw [ha]
    exact List.mem_append_left _ hy
  · cases a with
    | nil =>
      rw [List.append_nil] at hstop ⊢
      exact hstop hencoder
    | cons b z =>
      rw [List.cons_append] at ha
      obtain ⟨rfl, hz⟩ := List.cons.inj ha
      have hspace : (32 : UInt8) ∉ z := by
        rcases List.eq_nil_or_concat more with hnil | ⟨front, last, hconcat⟩
        · exact absurd hnil hmore
        · rw [hconcat, List.concat_eq_append, ← List.append_assoc] at hz
          have hfront := (List.append_inj' hz rfl).1
          intro hmem
          refine space_notMem_textOfNat m.len ?_
          rw [hfront]
          exact List.mem_append_left _ hmem
      refine ⟨⟨some m.encoder, none, z⟩, parses_stop ?_, .len hspace⟩
      rw [Handler.turn, readEncoder_fresh]
      simp [Handler.readLen, splitSpace_none hspace]

/-! ### The whole stream -/

/-- The length that is written is that of the payload. -/
def Message.Sized (m : Message ω) : Prop := m.len = m.payload.length

/-- The decoder undoes the encoder; what is raw comes back as its bytes. -/
def Message.Decodes (codec : Codec ω) (m : Message ω) : Prop :=
  (m.encoder = 1 ∧ m.obj = .bytes m.payload) ∨ (m.Sized ∧ decoded codec m.encoder m.payload = .ok m.obj)

/-- The position is after a header and before the end of its payload. -/
def Inside : List (Message ω) → Nat → Prop
  | [], _ => False
  | m :: ms, p => (m.head.length ≤ p ∧ p < m.bytes.length) ∨ (m.bytes.length ≤ p ∧ Inside ms (p - m.bytes.length))

instance decidableInside : (ms : List (Message ω)) → (p : Nat) → Decidable (Inside ms p)
  | [], _ => inferInstanceAs (Decidable False)
  | m :: ms, p =>
    have := decidableInside ms (p - m.bytes.length)
    inferInstanceAs (Decidable (_ ∨ _ ∧ _))

theorem Message.Decodes.sized {m : Message ω} (h : m.Decodes codec) : decoded codec m.encoder m.payload = .ok m.obj := by
  rcases h with ⟨hencoder, hobj⟩ | ⟨-, hdecoded⟩
  · rw [decoded, if_pos hencoder, hobj]
  · exact hdecoded

theorem Message.Decodes.unsized {m : Message ω} (h : m.Decodes codec) (hsized : ¬ m.Sized) :
    m.encoder = 1 ∧ m.obj = .bytes m.payload := by
  rcases h with hraw | ⟨hs, -⟩
  · exact hraw
  · exact absurd hs hsized

/-- How far the loop gets with a part of the stream. -/
inductive Reach (codec : Codec ω) (ms : List (Message ω)) (y : Bytes) : Prop
  /-- All complete messages are yielded, and the rest of a header is waited for. -/
  | rests (done todo : List (Message ω)) (z : Bytes) (h : Handler) (hms : ms = done ++ todo)
      (hsized : ∀ m ∈ done, m.Sized) (hy : y = channel done ++ z) (hinside : ¬ Inside todo z.length)
      (hparses : Parses codec (fresh y) (done.map (·.obj)) h) (hresting : Resting h z)
  | hangs (hinside : Inside ms y.length) (hnot : ∀ objs h, ¬ Parses codec (fresh y) objs h)
  /-- A length is not that of the payload: the object is not what was sent. -/
  | garbles (done todo : List (Message ω)) (m : Message ω) (hms : ms = done ++ m :: todo) (hm : ¬ m.Sized)
      (hparses : ∀ objs h, Parses codec (fresh y) objs h →
        ∃ obj rest, objs = done.map (·.obj) ++ obj :: rest ∧ obj ≠ m.obj)

theorem channel_cons (m : Message ω) (ms : List (Message ω)) : channel (m :: ms) = m.bytes ++ channel ms := by
  simp [channel]

theorem inside_append (done todo : List (Message ω)) (p : Nat) :
    Inside (done ++ todo) ((channel done).length + p) ↔ Inside todo p := by
  induction done with
  | nil => simp [channel]
  | cons m done ih =>
    have hlength : (channel (m :: done)).length + p = m.bytes.length + ((channel done).length + p) := by
      rw [channel_cons, List.length_append, Nat.add_assoc]
    rw [List.cons_append, Inside, hlength, Nat.add_sub_cancel_left, ih]
    constructor
    · rintro (⟨-, hlt⟩ | ⟨-, htodo⟩)
      · omega
      · exact htodo
    · intro htodo
      exact Or.inr ⟨Nat.le_add_right _ _, htodo⟩

theorem not_inside_header {m : Message ω} {p : Nat} (h : p < m.head.length) (ms : List (Message ω)) :
    ¬ Inside (m :: ms) p := by
  have hbytes : m.bytes.length = m.head.length + m.payload.length := by
    rw [Message.bytes, List.length_append]
  rw [Inside]
  omega

/-- One complete message, and then the rest. -/
theorem Reach.cons {m : Message ω} {ms : List (Message ω)} {y : Bytes} (hsized : m.Sized)
    (hdecodes : m.Decodes codec) (h : Reach codec ms y) : Reach codec (m :: ms) (m.bytes ++ y) := by
  have hturn : (fresh (m.bytes ++ y)).turn codec = .ok (.again (fresh y) (some m.obj)) := by
    rw [Message.bytes, List.append_assoc, turn_head, if_pos (by rw [hsized, List.length_append]; omega), hsized,
      List.take_left, List.drop_left, hdecodes.sized]
    rfl
  cases h with
  | rests done todo z h hms hall hy hinside hparses hresting =>
    refine .rests (m :: done) todo z h (by rw [hms]; rfl) ?_ ?_ hinside ?_ hresting
    · intro m' hm'
      rcases List.mem_cons.mp hm' with rfl | hm'
      · exact hsized
      · exact hall m' hm'
    · rw [hy, channel_cons, List.append_assoc]
    · exact (parses_again hturn).mpr ⟨_, rfl, hparses⟩
  | hangs hinside hnot =>
    refine .hangs ?_ fun objs h hparses => ?_
    · have hshift := (inside_append [m] ms y.length).mpr hinside
      simpa [channel] using hshift
    · obtain ⟨rest, -, hrest⟩ := (parses_again hturn).mp hparses
      exact hnot rest h hrest
  | garbles done todo m' hms hm hparses =>
    refine .garbles (m :: done) todo m' (by rw [hms]; rfl) hm fun objs h hp => ?_
    obtain ⟨rest, rfl, hrest⟩ := (parses_again hturn).mp hp
    obtain ⟨obj, rest', rfl, hne⟩ := hparses rest h hrest
    exact ⟨obj, rest', rfl, hne⟩

/-- A message whose length is not that of its payload. -/
theorem reach_unsized {m : Message ω} {ms : List (Message ω)} {rest : Bytes} (hsized : ¬ m.Sized)
    (hdecodes : m.Decodes codec) : Reach codec (m :: ms) (m.head ++ rest) := by
  obtain ⟨hencoder, hobj⟩ := hdecodes.unsized hsized
  refine .garbles [] ms m rfl hsized fun objs h hp => ?_
  by_cases hlong : m.len ≤ rest.length
  · have hturn : (fresh (m.head ++ rest)).turn codec =
        .ok (.again (fresh (rest.drop m.len)) (some (.bytes (rest.take m.len)))) := by
      rw [turn_head, if_pos hlong, decoded, if_pos hencoder]
      rfl
    obtain ⟨objs', rfl, -⟩ := (parses_again hturn).mp hp
    refine ⟨_, objs', rfl, ?_⟩
    rw [hobj]
    intro heq
    have hlength := congrArg List.length (Obj.bytes.inj heq)
    rw [List.length_take, Nat.min_eq_left hlong] at hlength
    exact hsized hlength
  · exact absurd hp (not_parses_short (by omega))

/-- A message whose payload is not complete. -/
theorem reach_short {m : Message ω} {rest : Bytes} (hsized : m.Sized) (hshort : rest.length < m.payload.length)
    (ms : List (Message ω)) : Reach codec (m :: ms) (m.head ++ rest) := by
  refine .hangs (Or.inl ?_) fun objs h => not_parses_short (by rw [hsized]; exact hshort)
  simp only [Message.bytes, List.length_append]
  omega

/-- Every part of the stream is one of these. -/
theorem reach {ms : List (Message ω)} (hdecodes : ∀ m ∈ ms, m.Decodes codec) {y more : Bytes}
    (h : y ++ more = channel ms) : Reach codec ms y := by
  induction ms generalizing y with
  | nil =>
    have hy : y = [] := (List.append_eq_nil_iff.mp h).1
    subst hy
    refine .rests [] [] [] (fresh []) rfl (by simp) rfl (by simp [Inside]) ?_ (.encoder (by simp))
    exact parses_stop (by simp [Handler.turn, Handler.readEncoder, fresh, splitSpace_none])
  | cons m ms ih =>
    have hm := hdecodes m List.mem_cons_self
    have hstream : y ++ more = m.head ++ (m.payload ++ channel ms) := by
      rw [h, channel_cons, Message.bytes, List.append_assoc]
    have hcomplete : ∀ rest : Bytes, rest ++ more = m.payload ++ channel ms → Reach codec (m :: ms) (m.head ++ rest) := by
      intro rest hrest
      by_cases hsized : m.Sized
      · by_cases hshort : rest.length < m.payload.length
        · exact reach_short hsized hshort ms
        · have hpayload : m.payload <+: m.payload ++ channel ms := List.prefix_append _ _
          have hprefix : rest <+: m.payload ++ channel ms := ⟨more, hrest⟩
          obtain ⟨y', rfl⟩ := List.prefix_of_prefix_length_le hpayload hprefix (by omega)
          rw [List.append_assoc] at hrest
          have hreach := ih (fun m' hm' => hdecodes m' (List.mem_cons_of_mem _ hm')) (List.append_cancel_left hrest)
          rw [← List.append_assoc]
          exact hreach.cons hsized hm
      · exact reach_unsized hsized hm
    rcases List.append_eq_append_iff.mp hstream with ⟨a, hhead, hmore⟩ | ⟨p, rfl, hp⟩
    · by_cases ha : a = []
      · subst ha
        rw [List.append_nil] at hhead
        rw [List.nil_append] at hmore
        rw [← hhead, ← List.append_nil m.head]
        exact hcomplete [] hmore
      · have hpartial : ∃ h', Parses codec (fresh y) [] h' ∧ Resting h' y := parses_partial hhead.symm ha
        obtain ⟨h', hparses, hresting⟩ := hpartial
        refine .rests [] (m :: ms) y h' rfl (by simp) rfl (not_inside_header ?_ ms) hparses hresting
        have hpos := List.length_pos_iff.mpr ha
        rw [hhead, List.length_append]
        omega
    · exact hcomplete p hp.symm

/-! ### Chunk after chunk -/

theorem count_space_head (m : Message ω) : m.head.count 32 = 2 := by
  have hencoder := List.count_eq_zero_of_not_mem (space_notMem_textOfInt m.encoder)
  have hlen := List.count_eq_zero_of_not_mem (space_notMem_textOfNat m.len)
  rw [head_eq, List.count_append, List.count_cons_self, List.count_append, hencoder, hlen]
  rfl

theorem Resting.count_space {h : Handler} {x : Bytes} (hrest : Resting h x) : x.count 32 ≤ 1 := by
  cases hrest with
  | encoder hx =>
    rw [List.count_eq_zero_of_not_mem hx]
    omega
  | @len encoder y hy =>
    have hencoder := List.count_eq_zero_of_not_mem (space_notMem_textOfInt encoder)
    rw [List.count_append, List.count_cons_self, hencoder, List.count_eq_zero_of_not_mem hy]

/-- A handler that waits for the rest of a header is not at the end of a stream. -/
theorem Resting.eq_nil {h : Handler} {x : Bytes} (hrest : Resting h x) {ms : List (Message ω)} (hx : x = channel ms) :
    ms = [] := by
  cases ms with
  | nil => rfl
  | cons m ms =>
    have hcount := hrest.count_space
    rw [hx, channel_cons, Message.bytes, List.count_append, List.count_append, count_space_head] at hcount
    omega

theorem delivers_cons {h h' : Handler} {x chunk : Bytes} {chunks : List Bytes} {first rest : List (Obj ω)}
    (hrest : Resting h x) (hparses : Parses codec (fresh (x ++ chunk)) first h') :
    Delivers codec h (chunk :: chunks) (first ++ rest) ↔ Delivers codec h' chunks rest := by
  constructor
  · rintro ⟨first', rest', h'', heq, hreceives, hdelivers⟩
    obtain ⟨rfl, rfl⟩ := hparses.unique ((hrest.parses chunk).mp hreceives)
    rwa [List.append_cancel_left heq]
  · intro hdelivers
    exact ⟨first, rest, h', rfl, (hrest.parses chunk).mpr hparses, hdelivers⟩

theorem delivers_resting {h : Handler} {x : Bytes} {ms : List (Message ω)} {chunks : List Bytes} (hrest : Resting h x)
    (hdecodes : ∀ m ∈ ms, m.Decodes codec) (hstream : x ++ chunks.flatten = channel ms) (hx : ¬ Inside ms x.length) :
    Delivers codec h chunks (ms.map (·.obj)) ↔
      (∀ m ∈ ms, m.Sized) ∧ ∀ pre, pre <+: chunks → ¬ Inside ms (x ++ pre.flatten).length := by
  induction chunks generalizing h x ms with
  | nil =>
    rw [List.flatten_nil, List.append_nil] at hstream
    rw [hrest.eq_nil hstream]
    simp [Delivers, Inside]
  | cons chunk chunks ih =>
    rw [List.flatten_cons, ← List.append_assoc] at hstream
    cases reach hdecodes hstream with
    | rests done todo z h' hms hsized hy hinside hparses hresting =>
      subst hms
      have htodo : z ++ chunks.flatten = channel todo := by
        have hsplit : channel (done ++ todo) = channel done ++ channel todo := List.flatMap_append
        rw [hy, List.append_assoc, hsplit] at hstream
        exact List.append_cancel_left hstream
      have hdecodes' : ∀ m ∈ todo, m.Decodes codec := fun m hm => hdecodes m (List.mem_append_right _ hm)
      rw [List.map_append, delivers_cons hrest hparses, ih hresting hdecodes' htodo hinside]
      refine and_congr ⟨fun hall m hm => ?_, fun hall m hm => hall m (List.mem_append_right _ hm)⟩ ?_
      · rcases List.mem_append.mp hm with hm | hm
        · exact hsized m hm
        · exact hall m hm
      · have hshift : ∀ pre : List Bytes, Inside (done ++ todo) (x ++ (chunk :: pre).flatten).length ↔
            Inside todo (z ++ pre.flatten).length := by
          intro pre
          rw [List.flatten_cons, ← List.append_assoc, hy, List.append_assoc, List.length_append, inside_append]
        constructor
        · intro hall pre hpre
          cases pre with
          | nil => simpa using hx
          | cons c pre =>
            obtain ⟨rfl, hpre'⟩ := List.cons_prefix_cons.mp hpre
            rw [hshift]
            exact hall pre hpre'
        · intro hall pre hpre
          rw [← hshift]
          exact hall _ (List.cons_prefix_cons.mpr ⟨rfl, hpre⟩)
    | hangs hinside hnot =>
      constructor
      · rintro ⟨first, rest, h', -, hreceives, -⟩
        exact absurd ((hrest.parses chunk).mp hreceives) (hnot _ _)
      · rintro ⟨-, hall⟩
        refine absurd ?_ (hall [chunk] ⟨chunks, rfl⟩)
        simpa using hinside
    | garbles done todo m hms hm hparses =>
      subst hms
      constructor
      · rintro ⟨first, rest, h', heq, hreceives, -⟩
        obtain ⟨obj, rest', rfl, hne⟩ := hparses _ _ ((hrest.parses chunk).mp hreceives)
        rw [List.map_append, List.map_cons, List.append_assoc] at heq
        exact absurd (List.cons.inj (List.append_cancel_left heq)).1.symm hne
      · rintro ⟨hall, -⟩
        exact absurd (hall m (by simp)) hm

/-! ### What was called for -/

/-- The object a call is for. -/
def Call.obj : Call ω → Obj ω
  | .raw data _ => .bytes data
  | .dumped _ obj => obj

/-- The object's `len()` is the number of its bytes. -/
def Call.Sized : Call ω → Prop
  | .raw data len => len = data.length
  | .dumped _ _ => True

/-- The decoder undoes the encoder on what the call encodes to. -/
def Call.Undone (codec : Codec ω) : Call ω → Prop
  | .raw _ _ => True
  | .dumped format obj => ∀ encoded, codec.dumps format obj = .ok encoded → codec.loads format encoded = .ok obj

theorem decoded_number (format : Format) (encoded : Bytes) :
    decoded codec format.number encoded = codec.loads format encoded := by
  cases format <;> rfl

/-- What a call of `output` has written. -/
theorem output_spec {call : Call ω} {m : Message ω} (h : output codec call = .ok m) :
    m.obj = call.obj ∧ (m.Sized ↔ call.Sized) ∧ (call.Undone codec → m.Decodes codec) := by
  cases call with
  | raw data len =>
    cases h
    exact ⟨rfl, Iff.rfl, fun _ => Or.inl ⟨rfl, rfl⟩⟩
  | dumped format obj =>
    rw [output] at h
    cases hdumps : codec.dumps format obj with
    | error e =>
      rw [hdumps] at h
      cases h
    | ok encoded =>
      rw [hdumps] at h
      cases h
      refine ⟨rfl, ⟨fun _ => trivial, fun _ => rfl⟩, fun hundone => Or.inr ⟨rfl, ?_⟩⟩
      rw [decoded_number]
      exact hundone encoded hdumps

theorem outputs_spec {calls : List (Call ω)} {messages : List (Message ω)}
    (h : calls.mapM (output codec) = .ok messages) (hundone : ∀ call ∈ calls, call.Undone codec) :
    messages.map (·.obj) = calls.map Call.obj ∧ (∀ m ∈ messages, m.Decodes codec) ∧
      ((∀ m ∈ messages, m.Sized) ↔ ∀ call ∈ calls, call.Sized) := by
  rw [Lib.mapM_ok_iff] at h
  induction h with
  | nil => simp
  | cons hcall _ ih =>
    obtain ⟨hobj, hsized, hdecodes⟩ := output_spec hcall
    obtain ⟨hobjs, hdecodes', hsized'⟩ := ih fun call hmem => hundone call (List.mem_cons_of_mem _ hmem)
    refine ⟨by rw [List.map_cons, List.map_cons, hobj, hobjs], ?_, ?_⟩
    · rw [List.forall_mem_cons]
      exact ⟨hdecodes (hundone _ List.mem_cons_self), hdecodes'⟩
    · rw [List.forall_mem_cons, List.forall_mem_cons, hsized, hsized']

theorem not_inside_zero (ms : List (Message ω)) : ¬ Inside ms 0 := by
  cases ms with
  | nil => exact id
  | cons m ms =>
    refine not_inside_header ?_ ms
    rw [head_eq, List.length_append, List.length_cons]
    omega

/-- **What is delivered.** However the bytes of the channel are cut up, every `receive` returns and together they
yield the objects in order, exactly when every raw object's `len()` is its number of bytes and no chunk ends inside a
payload. -/
theorem delivers_iff (codec : Codec ω) {calls : List (Call ω)} {messages : List (Message ω)} {chunks : List Bytes}
    (houtput : calls.mapM (output codec) = .ok messages) (hundone : ∀ call ∈ calls, call.Undone codec)
    (hchunks : chunks.flatten = channel messages) :
    Delivers codec .init chunks (calls.map Call.obj) ↔
      (∀ call ∈ calls, call.Sized) ∧ ∀ pre, pre <+: chunks → ¬ Inside messages pre.flatten.length := by
  obtain ⟨hobjs, hdecodes, hsized⟩ := outputs_spec houtput hundone
  have hstart : Resting Handler.init [] := .encoder (by simp)
  rw [← hobjs, ← hsized]
  exact delivers_resting hstart hdecodes hchunks (not_inside_zero messages)

/-- The JSON of the two truth values. -/
def truths : Codec Bool where
  dumps
    | .json, .other value => .ok (if value then [116, 114, 117, 101] else [102, 97, 108, 115, 101])
    | _, _ => .error .typeError
  loads
    | .json, [116, 114, 117, 101] => .ok (.other true)
    | .json, [102, 97, 108, 115, 101] => .ok (.other false)
    | _, _ => .error .valueError

/-- `output(b'hi', Raw)` and `output(True, JSON)`, in three chunks that end inside the headers: `1`, ` 2 hi3 4` and
` true`. -/
theorem delivers_across_headers :
    Delivers truths .init [[49], [32, 50, 32, 104, 105, 51, 32, 52], [32, 116, 114, 117, 101]]
      [.bytes [104, 105], .other true] := by
  have hundone : ∀ call ∈ [Call.raw [104, 105] 2, .dumped .json (.other true)], call.Undone truths := by
    intro call hcall
    rcases List.mem_pair.mp hcall with rfl | rfl
    · trivial
    · rintro encoded hdumps
      cases hdumps
      rfl
  have houtput : [Call.raw [104, 105] 2, .dumped .json (.other true)].mapM (output truths) =
      .ok [⟨1, 2, [104, 105], .bytes [104, 105]⟩, ⟨3, 4, [116, 114, 117, 101], .other true⟩] := rfl
  refine (delivers_iff truths houtput hundone (by decide +kernel)).mpr ⟨?_, ?_⟩
  · intro call hcall
    rcases List.mem_pair.mp hcall with rfl | rfl
    · rfl
    · trivial
  · intro pre hpre
    rw [← List.mem_inits] at hpre
    revert pre
    decide +kernel

/-- `output(b'ab', Raw)` in the chunks `1 2 a` and `b`, and `output(array('H', [1]), Raw)` in one chunk. -/
theorem payload_not_delivered :
    ¬ (∀ (calls : List (Call Bool)) (messages : List (Message Bool)) (chunks : List Bytes),
      calls.mapM (output truths) = .ok messages → (∀ call ∈ calls, call.Undone truths) →
      chunks.flatten = channel messages → Delivers truths .init chunks (calls.map Call.obj)) ∧
    (∀ objs h, ¬ Receives truths .init [49, 32, 50, 32, 97] objs h) ∧
    ¬ Delivers truths .init [[49, 32, 49, 32, 1, 0]] [.bytes [1, 0]] := by
  have hhangs : ∀ objs h, ¬ Receives truths .init [49, 32, 50, 32, 97] objs h := by
    intro objs h
    have hshort : ([97] : Bytes).length < (⟨1, 2, [97, 98], .bytes [97, 98]⟩ : Message Bool).len := by decide
    exact not_parses_short hshort
  refine ⟨fun hall => ?_, hhangs, fun hdelivers => ?_⟩
  · obtain ⟨first, rest, h', -, hreceives, -⟩ := hall [.raw [97, 98] 2] [⟨1, 2, [97, 98], .bytes [97, 98]⟩]
      [[49, 32, 50, 32, 97], [98]] rfl (by simp [Call.Undone]) (by decide +kernel)
    exact hhangs first h' hreceives
  · have hstart : Resting Handler.init [] := .encoder (by simp)
    have hbytes : ([] : Bytes) ++ [[49, 32, 49, 32, 1, 0]].flatten =
        channel [(⟨1, 1, [1, 0], .bytes [1, 0]⟩ : Message Bool)] := by decide +kernel
    have hsized := ((delivers_resting hstart (by simp [Message.Decodes]) hbytes (not_inside_zero _)).mp hdelivers).1
    exact absurd (hsized _ List.mem_cons_self) (by simp [Message.Sized])

end Lager.Wire
