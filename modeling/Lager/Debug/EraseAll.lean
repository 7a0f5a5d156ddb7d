import Lager.Debug.OpenOcd
import Lager.BoxConfig.Verbs

/-!
# The erase of every flash bank

`flash_erase_all` of `debug/openocd.py`. It asks for the flash banks, erases each one that the reply lists, and after
an erase that fails tries the whole chip. Whether it returns is decided by one list of outputs and the last error, and
that list is not empty as soon as one bank was erased.

The daemon answers each command anew: `sector k` and `address k` are its answers in the round of the `k`-th listed
bank. A command succeeds when its reply says so, and one that fails blanks nothing.
-/

namespace Lager.Debug.OpenOcd

open Lager.Lib Lager.Py

/-! ### The chip and the daemon -/

/-- The banks of the target, and those that are blank. -/
structure Chip where
  banks : List Nat
  blank : List Nat
  deriving DecidableEq

def Chip.Blank (chip : Chip) : Prop := ∀ bank ∈ chip.banks, bank ∈ chip.blank

instance (chip : Chip) : Decidable chip.Blank := inferInstanceAs (Decidable (∀ bank ∈ chip.banks, bank ∈ chip.blank))

def Chip.eraseSector (chip : Chip) (bank : Nat) : Chip := { chip with blank := bank :: chip.blank }

def Chip.eraseAddress (chip : Chip) : Chip := { chip with blank := chip.banks }

/-- The daemon's answers: to `flash banks`, and in each round to `flash erase_sector` and `flash erase_address`. -/
structure Answers where
  banks : Daemon
  sector : Nat → Daemon
  address : Nat → Daemon

/-- What `flash_erase_all` raises. `int` refuses a number of more than 4300 digits. -/
inductive EraseError where
  | rpc (e : RpcError)
  | valueError
  deriving DecidableEq

/-! ### The enumeration -/

/-- `re.match(r'\s*#(\d+)\s*:', line)`, and the digits. -/
def bankOfLine (line : Text) : Option Text :=
  match line.dropWhile isSpace with
  | '#' :: rest =>
    let digits := rest.takeWhile fun c => (digitOf c).isSome
    if digits ≠ [] ∧ ((rest.drop digits.length).dropWhile isSpace).head? = some ':' then some digits else none
  | _ => none

/-- `bank_indices` after the loop over the lines. -/
def bankIndices (banksOut : Text) : Except EraseError (List Nat) :=
  ((BoxConfig.splitlinesFrom [] banksOut).filterMap bankOfLine).mapM fun digits =>
    match intOfTextLimited digits with
    | some n => .ok n.toNat
    | none => .error .valueError

section Erase

variable (upper : Text → Text) (alphanumeric : Char → Bool) (rpc : OpenOcdRpc) (answers : Answers)

/-- What the enumeration lists; one that fails lists nothing. -/
def listedBanks : Except EraseError (List Nat) :=
  match cmdChecked alphanumeric rpc answers.banks "flash banks" "flash banks" with
  | .ok banksOut => bankIndices banksOut
  | .error _ => .ok []

/-- The banks to erase: bank 0 alone where none is listed. -/
def banksToErase : Except EraseError (List Nat) := do
  let listed ← listedBanks alphanumeric rpc answers
  return if listed = [] then [0] else listed

def eraseSector (k bank : Nat) : Except RpcError Text :=
  cmdChecked alphanumeric rpc (answers.sector k) s!"flash erase_sector {bank} 0 last" s!"flash erase_sector {bank}"

def eraseAddress (k : Nat) : Except RpcError Text :=
  cmdChecked alphanumeric rpc (answers.address k) "flash erase_address 0 0xFFFFFFFF" "flash erase_address"

/-- The loop over the banks from round `k` on, and the return. -/
def eraseBanks (k : Nat) (chip : Chip) (outputs : List Text) (lastExc : Option RpcError) :
    List Nat → Except RpcError Text × Chip
  | [] =>
    match lastExc with
    | some exc => if outputs = [] then (.error exc, chip) else (.ok ("\n".toList.intercalate outputs), chip)
    | none => (.ok ("\n".toList.intercalate outputs), chip)
  | bank :: rest =>
    match eraseSector alphanumeric rpc answers k bank with
    | .ok out => eraseBanks (k + 1) (chip.eraseSector bank) (outputs ++ [out]) lastExc rest
    | .error _ =>
      match eraseAddress alphanumeric rpc answers k with
      | .ok out => (.ok ("\n".toList.intercalate (outputs ++ [out])), chip.eraseAddress)
      | .error exc => eraseBanks (k + 1) chip outputs (some exc) rest

def flashEraseAll (chip : Chip) : Except EraseError Text × Chip :=
  match refuseWithoutFlashDriver upper rpc "flash erase_sector" with
  | .error e => (.error (.rpc e), chip)
  | .ok () =>
    match banksToErase alphanumeric rpc answers with
    | .error e => (.error e, chip)
    | .ok banks =>
      let erased := eraseBanks alphanumeric rpc answers 0 chip [] none banks
      (erased.1.mapError .rpc, erased.2)

/-! ### Rounds -/

/-- The erase of a round's own bank succeeds. A round is a bank and its number. -/
def SectorErased (round : Nat × Nat) : Prop := ∃ out, eraseSector alphanumeric rpc answers round.2 round.1 = .ok out

/-- The erase of a round's own bank fails and that of the whole chip succeeds. -/
def FellBack (round : Nat × Nat) : Prop :=
  ¬SectorErased alphanumeric rpc answers round ∧ ∃ out, eraseAddress alphanumeric rpc answers round.2 = .ok out

/-- A fallback blanks the whole chip, or no bank is erased by its own command, or each bank of the chip is: blank
before, or in a round whose own erase succeeds. -/
structure Covered (banks : List Nat) (chip : Chip) : Prop where
  covered : (∃ round ∈ banks.zipIdx, FellBack alphanumeric rpc answers round) ∨
    (∀ round ∈ banks.zipIdx, ¬SectorErased alphanumeric rpc answers round) ∨
    ∀ bank ∈ chip.banks, bank ∈ chip.blank ∨
      ∃ k, (bank, k) ∈ banks.zipIdx ∧ SectorErased alphanumeric rpc answers (bank, k)

/-- A full erase that returns leaves a blank chip. -/
def BlankAfter (chip : Chip) : Prop :=
  ∀ out chip', flashEraseAll upper alphanumeric rpc answers chip = (.ok out, chip') → chip'.Blank

end Erase

/-! ### What the loop leaves -/

section Loop

variable {upper : Text → Text} {alphanumeric : Char → Bool} {rpc : OpenOcdRpc} {answers : Answers}

/-- Induction over the banks: the first fallback ends the loop with a blank chip. -/
theorem eraseBanks_fellBack {banks : List Nat} {k : Nat}
    (h : ∃ round ∈ banks.zipIdx k, FellBack alphanumeric rpc answers round) (chip : Chip) (outputs : List Text)
    (lastExc : Option RpcError) : (eraseBanks alphanumeric rpc answers k chip outputs lastExc banks).2.Blank := by
  induction banks generalizing k chip outputs lastExc with
  | nil =>
    obtain ⟨round, hround, -⟩ := h
    cases hround
  | cons bank rest ih =>
    obtain ⟨round, hround, hfell⟩ := h
    rw [List.zipIdx_cons, List.mem_cons] at hround
    unfold eraseBanks
    cases hsector : eraseSector alphanumeric rpc answers k bank with
    | ok out =>
      rcases hround with rfl | hround
      · exact absurd ⟨out, hsector⟩ hfell.1
      · exact ih ⟨round, hround, hfell⟩ _ _ _
    | error exc =>
      cases haddress : eraseAddress alphanumeric rpc answers k with
      | ok out => exact fun bank hbank => hbank
      | error exc' =>
        rcases hround with rfl | hround
        · obtain ⟨-, out, hout⟩ := hfell
          rw [haddress] at hout
          cases hout
        · exact ih ⟨round, hround, hfell⟩ _ _ _

/-- What the loop leaves where no fallback succeeds. -/
structure Erased (alphanumeric : Char → Bool) (rpc : OpenOcdRpc) (answers : Answers) (rounds : List (Nat × Nat))
    (chip chip' : Chip) : Prop where
  banks : chip'.banks = chip.banks
  blank : ∀ bank, bank ∈ chip'.blank ↔ bank ∈ chip.blank ∨
    ∃ k, (bank, k) ∈ rounds ∧ SectorErased alphanumeric rpc answers (bank, k)

theorem erased_nil (chip : Chip) : Erased alphanumeric rpc answers [] chip chip := by
  refine ⟨rfl, fun bank => ⟨Or.inl, ?_⟩⟩
  rintro (hblank | ⟨k, hk, -⟩)
  · exact hblank
  · cases hk

theorem Erased.cons_sector {bank k : Nat} {rounds : List (Nat × Nat)} {chip chip' : Chip}
    (hsector : SectorErased alphanumeric rpc answers (bank, k))
    (h : Erased alphanumeric rpc answers rounds (chip.eraseSector bank) chip') :
    Erased alphanumeric rpc answers ((bank, k) :: rounds) chip chip' := by
  refine ⟨h.banks, fun b => (h.blank b).trans ⟨?_, ?_⟩⟩
  · rintro (hblank | ⟨j, hj, hdone⟩)
    · rcases List.mem_cons.mp hblank with rfl | hblank
      · exact Or.inr ⟨k, List.mem_cons_self, hsector⟩
      · exact Or.inl hblank
    · exact Or.inr ⟨j, List.mem_cons_of_mem _ hj, hdone⟩
  · rintro (hblank | ⟨j, hj, hdone⟩)
    · exact Or.inl (List.mem_cons_of_mem _ hblank)
    · rcases List.mem_cons.mp hj with heq | hj
      · cases heq
        exact Or.inl List.mem_cons_self
      · exact Or.inr ⟨j, hj, hdone⟩

theorem Erased.cons_failed {bank k : Nat} {rounds : List (Nat × Nat)} {chip chip' : Chip}
    (hsector : ¬SectorErased alphanumeric rpc answers (bank, k))
    (h : Erased alphanumeric rpc answers rounds chip chip') :
    Erased alphanumeric rpc answers ((bank, k) :: rounds) chip chip' := by
  refine ⟨h.banks, fun b => (h.blank b).trans (or_congr_right ⟨?_, ?_⟩)⟩
  · rintro ⟨j, hj, hdone⟩
    exact ⟨j, List.mem_cons_of_mem _ hj, hdone⟩
  · rintro ⟨j, hj, hdone⟩
    rcases List.mem_cons.mp hj with heq | hj
    · cases heq
      exact absurd hdone hsector
    · exact ⟨j, hj, hdone⟩

/-- Induction over the banks, where no fallback succeeds: the loop blanks the banks whose own erase succeeds, and it
returns once there is one. -/
theorem eraseBanks_not_fellBack {banks : List Nat} {k : Nat}
    (h : ∀ round ∈ banks.zipIdx k, ¬FellBack alphanumeric rpc answers round) (chip : Chip) (outputs : List Text)
    (lastExc : Option RpcError) :
    Erased alphanumeric rpc answers (banks.zipIdx k) chip
      (eraseBanks alphanumeric rpc answers k chip outputs lastExc banks).2 ∧
    ((∃ out, (eraseBanks alphanumeric rpc answers k chip outputs lastExc banks).1 = .ok out) ↔
      outputs ≠ [] ∨ (∃ round ∈ banks.zipIdx k, SectorErased alphanumeric rpc answers round) ∨
        banks = [] ∧ lastExc = none) := by
  induction banks generalizing k chip outputs lastExc with
  | nil =>
    unfold eraseBanks
    cases lastExc with
    | none => exact ⟨erased_nil chip, fun _ => Or.inr (Or.inr ⟨rfl, rfl⟩), fun _ => ⟨_, rfl⟩⟩
    | some exc =>
      by_cases hout : outputs = []
      · simp only [if_pos hout]
        exact ⟨erased_nil chip, by simp [hout]⟩
      · simp only [if_neg hout]
        exact ⟨erased_nil chip, fun _ => Or.inl hout, fun _ => ⟨_, rfl⟩⟩
  | cons bank rest ih =>
    rw [List.zipIdx_cons] at h ⊢
    have hrest := fun round hround => h round (List.mem_cons_of_mem _ hround)
    unfold eraseBanks
    cases hsector : eraseSector alphanumeric rpc answers k bank with
    | ok out =>
      have hdone : SectorErased alphanumeric rpc answers (bank, k) := ⟨out, hsector⟩
      obtain ⟨herased, hreturned⟩ := ih hrest (chip.eraseSector bank) (outputs ++ [out]) lastExc
      refine ⟨herased.cons_sector hdone, fun _ => Or.inr (Or.inl ⟨_, List.mem_cons_self, hdone⟩), fun _ => ?_⟩
      exact hreturned.mpr (Or.inl (by simp))
    | error exc =>
      have hfailed : ¬SectorErased alphanumeric rpc answers (bank, k) := by
        rintro ⟨out, hout⟩
        rw [hsector] at hout
        cases hout
      cases haddress : eraseAddress alphanumeric rpc answers k with
      | ok out => exact absurd ⟨hfailed, out, haddress⟩ (h _ List.mem_cons_self)
      | error exc' =>
        obtain ⟨herased, hreturned⟩ := ih hrest chip outputs (some exc')
        refine ⟨herased.cons_failed hfailed, hreturned.trans (or_congr_right ⟨?_, ?_⟩)⟩
        · rintro (⟨round, hround, hdone⟩ | ⟨-, hnone⟩)
          · exact Or.inl ⟨round, List.mem_cons_of_mem _ hround, hdone⟩
          · cases hnone
        · rintro (⟨round, hround, hdone⟩ | ⟨hnil, -⟩)
          · rcases List.mem_cons.mp hround with rfl | hround
            · exact absurd hdone hfailed
            · exact Or.inl ⟨round, hround, hdone⟩
          · cases hnil

end Loop

/-! ### When a full erase is honest -/

section Honest

variable {upper : Text → Text} {alphanumeric : Char → Bool} {rpc : OpenOcdRpc} {answers : Answers}

theorem mapError_eq_ok {ε ε' α : Type} {f : ε → ε'} {x : Except ε α} {a : α} (h : x.mapError f = .ok a) :
    x = .ok a := by
  cases x with
  | ok b =>
    cases h
    rfl
  | error e => cases h

theorem banksToErase_ne_nil {banks : List Nat} (h : banksToErase alphanumeric rpc answers = .ok banks) :
    banks ≠ [] := by
  obtain ⟨listed, -, h⟩ := bind_eq_ok h
  cases h
  by_cases hnil : listed = []
  · rw [if_pos hnil]
    exact List.cons_ne_nil 0 []
  · rwa [if_neg hnil]

/-- The loop over banks that are not none: it is honest where they are covered. -/
theorem eraseBanks_blank_iff {banks : List Nat} (hbanks : banks ≠ []) (chip : Chip) :
    (∀ out chip', eraseBanks alphanumeric rpc answers 0 chip [] none banks = (.ok out, chip') → chip'.Blank) ↔
      Covered alphanumeric rpc answers banks chip := by
  by_cases hfell : ∃ round ∈ banks.zipIdx, FellBack alphanumeric rpc answers round
  · have hblank := eraseBanks_fellBack hfell chip [] none
    refine ⟨fun _ => ⟨Or.inl hfell⟩, fun _ out chip' hreturned => ?_⟩
    rwa [hreturned] at hblank
  · have hnot : ∀ round ∈ banks.zipIdx, ¬FellBack alphanumeric rpc answers round :=
      fun round hround hback => hfell ⟨round, hround, hback⟩
    obtain ⟨herased, hreturned⟩ := eraseBanks_not_fellBack hnot chip [] none
    constructor
    · intro hhonest
      by_cases hsome : ∃ round ∈ banks.zipIdx, SectorErased alphanumeric rpc answers round
      · obtain ⟨out, hout⟩ := hreturned.mpr (Or.inr (Or.inl hsome))
        have hblank := hhonest out _ (Prod.ext hout rfl)
        refine ⟨Or.inr (Or.inr fun bank hbank => (herased.blank bank).mp (hblank bank ?_))⟩
        rwa [herased.banks]
      · exact ⟨Or.inr (Or.inl fun round hround hdone => hsome ⟨round, hround, hdone⟩)⟩
    · rintro ⟨hback | hnone | hevery⟩ out chip' heq
      · exact absurd hback hfell
      · have hok := hreturned.mp ⟨out, congrArg Prod.fst heq⟩
        rcases hok with hne | ⟨round, hround, hdone⟩ | ⟨hnil, -⟩
        · exact absurd rfl hne
        · exact absurd hdone (hnone round hround)
        · exact absurd hnil hbanks
      · intro bank hbank
        rw [heq] at herased
        rw [herased.banks] at hbank
        exact (herased.blank bank).mpr (hevery bank hbank)

/-- **The full erase.** It returns for a blank chip only, exactly where it raises before the first erase, or the banks
that it tries are covered. -/
theorem blankAfter_iff (upper : Text → Text) (alphanumeric : Char → Bool) (rpc : OpenOcdRpc) (answers : Answers)
    (chip : Chip) : BlankAfter upper alphanumeric rpc answers chip ↔
      ∀ banks, refuseWithoutFlashDriver upper rpc "flash erase_sector" = .ok () →
        banksToErase alphanumeric rpc answers = .ok banks → Covered alphanumeric rpc answers banks chip := by
  unfold BlankAfter flashEraseAll
  cases hrefuse : refuseWithoutFlashDriver upper rpc "flash erase_sector" with
  | error e => simp
  | ok u =>
    cases hbanks : banksToErase alphanumeric rpc answers with
    | error e => simp
    | ok banks =>
      have hloop := @eraseBanks_blank_iff alphanumeric rpc answers banks (banksToErase_ne_nil hbanks) chip
      constructor
      · rintro hhonest banks' - heq
        cases heq
        refine hloop.mp fun out chip' hreturned => hhonest out chip' ?_
        dsimp only
        rw [hreturned]
        rfl
      · intro hcovered out chip' hreturned
        have hresult := mapError_eq_ok (congrArg Prod.fst hreturned)
        have hchip : (eraseBanks alphanumeric rpc answers 0 chip [] none banks).2 = chip' :=
          congrArg Prod.snd hreturned
        exact hloop.mpr (hcovered banks rfl rfl) out chip' (Prod.ext hresult hchip)

end Honest

/-! ### A bank that stays -/

theorem sized_answer {bytes : Bytes} (h : bytes.length < 4096) :
    ∀ chunk ∈ [bytes ++ [TCL_TERMINATOR]], 0 < chunk.length ∧ chunk.length ≤ 4096 := by
  intro chunk hchunk
  rw [List.mem_singleton.mp hchunk, List.length_append, List.length_singleton]
  omega

/-- A whole reply in one chunk. -/
def answer (bytes : Bytes) (h : bytes.length < 4096) : Connection :=
  .reached ⟨[bytes ++ [TCL_TERMINATOR]], sized_answer h, .closed⟩

/-- Two banks; the second cannot be erased. -/
def lockedBank : Answers where
  banks _ := answer (encode "#0 : stm32h7x.bank1\n#1 : stm32h7x.bank2\n".toList) (by decide)
  sector k _ := if k = 0 then answer (encode "erased\n".toList) (by decide)
    else answer (encode "Error: bank is locked\n".toList) (by decide)
  address _ _ := answer (encode "Error: bank is locked\n".toList) (by decide)

/-- An erase that leaves the second bank as it was returns. -/
theorem lockedBank_returned :
    ¬∀ upper alphanumeric rpc answers chip, BlankAfter upper alphanumeric rpc answers chip := by
  intro h
  have hrun : flashEraseAll id Char.isAlphanum ⟨"127.0.0.1", 6666, none⟩ lockedBank ⟨[0, 1], []⟩ =
      (.ok "erased\n".toList, ⟨[0, 1], [0]⟩) := by decide +kernel
  have hblank := h _ _ _ _ _ _ _ hrun
  exact absurd hblank (by decide)

end Lager.Debug.OpenOcd
