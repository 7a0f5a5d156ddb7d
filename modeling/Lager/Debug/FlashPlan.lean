import Lager.Debug.FlashLoader

/-!
# Every chunk of the image goes to its place

What `flash_image` is to make the loader do is a list of commands: the erase and one program command for each chunk,
with the bytes it takes. On every run, whatever the pace of the loader and the link, what the host has issued and
what the loader has done are beginnings of that list, and the whole of it when `flash_image` returns
(`triple_flashImage`). The list covers the range from the offset on, so that the run stays inside the QSPI window
exactly when the range does; `xip_to_flash_offset` looks at its start only (`flashImage_meets_iff`).
-/

namespace Lager.Debug.FlashLoader

open Lager.Py Lager.Lib

/-! ### The list -/

/-- The program commands from the byte `written` on. -/
def chunkOrders (image : Bytes) (flashId offset bufSz : Nat) (hbuf : 0 < bufSz) (written : Nat) :
    List (Order × Bytes) :=
  if written < image.length then
    (⟨.program, flashId, offset + written, min bufSz (image.length - written)⟩,
      sub image written (min bufSz (image.length - written))) ::
        chunkOrders image flashId offset bufSz hbuf (written + min bufSz (image.length - written))
  else []
termination_by image.length - written
decreasing_by omega

def eraseOrder (image : Bytes) (flashId offset : Nat) : Order × Bytes := (⟨.erase, flashId, offset, image.length⟩, [])

/-- The program commands for the image. -/
def programOrders (image : Bytes) (flashId offset bufSz : Nat) : List (Order × Bytes) :=
  if h : 0 < bufSz then chunkOrders image flashId offset bufSz h 0 else []

def plan (image : Bytes) (flashId offset bufSz : Nat) : List (Order × Bytes) :=
  eraseOrder image flashId offset :: programOrders image flashId offset bufSz

/-- The commands are for one range after the other, from the first address up to the last. -/
def Covers : Nat → List Order → Nat → Prop
  | start, [], stop => start = stop
  | start, o :: rest, stop => o.addr = start ∧ Covers (start + o.amount) rest stop

section Orders

variable {image : Bytes} {flashId offset bufSz : Nat} {hbuf : 0 < bufSz}

theorem covers_chunkOrders (written : Nat) (h : written ≤ image.length) :
    Covers (offset + written) ((chunkOrders image flashId offset bufSz hbuf written).map Prod.fst)
      (offset + image.length) := by
  induction hleft : image.length - written using Nat.strongRecOn generalizing written with
  | ind left ih =>
    rw [chunkOrders]
    split_ifs with hmore
    · refine ⟨rfl, ?_⟩
      have hnext := ih (image.length - (written + min bufSz (image.length - written))) (by omega)
        (written + min bufSz (image.length - written)) (by omega) rfl
      rwa [← Nat.add_assoc] at hnext
    · show offset + written = offset + image.length
      omega

theorem mem_chunkOrders {written : Nat} {c : Order × Bytes}
    (hc : c ∈ chunkOrders image flashId offset bufSz hbuf written) :
    c.1.kind = .program ∧ 0 < c.1.amount ∧ c.1.amount ≤ bufSz ∧ c.1.addr + c.1.amount ≤ offset + image.length := by
  induction hleft : image.length - written using Nat.strongRecOn generalizing written with
  | ind left ih =>
    rw [chunkOrders] at hc
    split_ifs at hc with hmore
    · rcases List.mem_cons.mp hc with rfl | hc
      · refine ⟨rfl, ?_, ?_, ?_⟩
        · show 0 < min bufSz (image.length - written)
          omega
        · show min bufSz (image.length - written) ≤ bufSz
          omega
        · show offset + written + min bufSz (image.length - written) ≤ offset + image.length
          omega
      · exact ih _ (by omega) hc rfl
    · cases hc

theorem flatten_chunkOrders (written : Nat) (h : written ≤ image.length) :
    ((chunkOrders image flashId offset bufSz hbuf written).map Prod.snd).flatten = image.drop written := by
  induction hleft : image.length - written using Nat.strongRecOn generalizing written with
  | ind left ih =>
    rw [chunkOrders]
    split_ifs with hmore
    · rw [List.map_cons, List.flatten_cons, ih _ (by omega) _ (by omega) rfl, sub, ← List.drop_drop,
        List.take_append_drop]
    · rw [List.drop_of_length_le (by omega)]
      rfl

end Orders

/-! ### A run without trouble -/

/-- Nothing fails, the loader is done with each command by the next access, and there is something to program. -/
structure Smooth (env : Env) (image : Bytes) (bufSz : Nat) : Prop where
  fate : ∀ n, env.fate n = .ok
  pace : ∀ n, 2 ≤ env.pace n
  answer : ∀ n, env.answer n = flRcOk
  finalState : ∀ n, env.finalState n = 1
  finalRc : ∀ n, env.finalRc n = flRcOk
  image : image ≠ []
  buffer : 0 < bufSz

/-! ### One access -/

section Access

variable (env : Env) (image : Bytes) (flashId offset bufSz : Nat)

/-- What is issued and done are beginnings of the list. -/
def Safe (l : Loader) (issued : List Order) : Prop :=
  issued <+: (plan image flashId offset bufSz).map Prod.fst ∧ l.done <+: plan image flashId offset bufSz

/-- How a run may end early. -/
def Broken (w : World) : Prop :=
  Safe image flashId offset bufSz w.loader w.issued ∧ ¬Smooth env image bufSz

/-- A fact about the loader and what has been issued. -/
def On (P : Loader → List Order → Prop) (w : World) : Prop := P w.loader w.issued

/-- A fact that the loader keeps as it works, and that says that all is well so far. -/
structure Kept (P : Loader → List Order → Prop) : Prop where
  step : ∀ l issued answer, (Smooth env image bufSz → answer = flRcOk) → P l issued → P (l.step answer) issued
  safe : ∀ l issued, P l issued → Safe image flashId offset bufSz l issued
  cmd : ∀ l issued, P l issued → l.cmd = 0 ∨ l.cmd = flCmdPing ∨ l.cmd = flCmdErase ∨ l.cmd = flCmdProgramVerify

variable {env image flashId offset bufSz} {P Q : Loader → List Order → Prop}

theorem Kept.run (h : Kept env image flashId offset bufSz P) {l : Loader} {issued : List Order} {answer : Nat}
    (hanswer : Smooth env image bufSz → answer = flRcOk) (hl : P l issued) (n : Nat) : P (l.run answer n) issued := by
  induction n generalizing l with
  | zero => exact hl
  | succ n ih => exact ih (h.step _ _ _ hanswer hl)

theorem Kept.tick (h : Kept env image flashId offset bufSz P) {w : World} (hw : On P w) : On P (w.tick env) :=
  h.run (fun hsmooth => hsmooth.answer _) hw _

theorem step_idle {l : Loader} (h : l.cmd = 0) (answer : Nat) : l.step answer = l := by
  rw [Loader.step, h]
  rfl

theorem run_idle {l : Loader} (h : l.cmd = 0) (answer n : Nat) : (l.run answer n).cmd = 0 := by
  induction n with
  | zero => exact h
  | succ n ih =>
    show ((l.step answer).run answer n).cmd = 0
    rw [step_idle h]
    exact ih

/-- After two steps a command is done. -/
theorem cmd_run {l : Loader} (hcmd : l.cmd = 0 ∨ l.cmd = flCmdPing ∨ l.cmd = flCmdErase ∨ l.cmd = flCmdProgramVerify)
    (answer n : Nat) : (l.run answer (n + 2)).cmd = 0 := by
  have htwo : ((l.step answer).step answer).cmd = 0 := by
    rcases hcmd with h | h | h | h
    · rw [step_idle h, step_idle h, h]
    · have hfirst : (l.step answer).cmd = 0 := by
        rw [Loader.step, if_pos h]
      rw [step_idle hfirst, hfirst]
    · have hfirst : (l.step answer).cmd = 0 := by
        rw [Loader.step, h]
        rfl
      rw [step_idle hfirst, hfirst]
    · cases htaking : l.taking with
      | true =>
        have hfirst : (l.step answer).cmd = 0 := by
          rw [Loader.step, h, htaking]
          rfl
        rw [step_idle hfirst, hfirst]
      | false =>
        have hfirst : l.step answer =
            { l with taking := true, data := l.data.other,
                     done := l.done ++ [(l.order .program, (l.buffers l.data).take l.amount)] } := by
          rw [Loader.step, h, htaking]
          rfl
        rw [hfirst, Loader.step]
        dsimp only
        rw [h]
        rfl
  exact run_idle htwo answer n

theorem triple_write {change : World → World} (hP : Kept env image flashId offset bufSz P)
    (hQ : Kept env image flashId offset bufSz Q) (hchange : ∀ w, On P w → On Q (change w)) :
    Triple (On P) (write env change) (fun _ => On Q) (Broken env image flashId offset bufSz) := by
  intro w hw
  have htick := hP.tick hw
  have hafter := hchange _ htick
  show Outcome _ _ (write env change w)
  rw [write]
  cases hfate : env.fate w.accesses with
  | ok => exact hafter
  | lost => exact ⟨hP.safe _ _ htick, fun hsmooth => nomatch (hsmooth.fate w.accesses).symm.trans hfate⟩
  | applied => exact ⟨hQ.safe _ _ hafter, fun hsmooth => nomatch (hsmooth.fate w.accesses).symm.trans hfate⟩

theorem triple_mww {set : Loader → Loader} (hP : Kept env image flashId offset bufSz P)
    (hQ : Kept env image flashId offset bufSz Q) (hset : ∀ l issued, P l issued → Q (set l) issued) :
    Triple (On P) (mww env set) (fun _ => On Q) (Broken env image flashId offset bufSz) :=
  triple_write hP hQ fun w hw => hset w.loader w.issued hw

theorem triple_mdw {α : Type} {read : World → α} (hP : Kept env image flashId offset bufSz P) :
    Triple (On P) (mdw env read) (fun a w => On P w ∧ a = read w) (Broken env image flashId offset bufSz) := by
  intro w hw
  have htick := hP.tick hw
  show Outcome _ _ (mdw env read w)
  rw [mdw]
  split_ifs with hfate
  · exact ⟨htick, rfl⟩
  · exact ⟨hP.safe _ _ htick, fun hsmooth => hfate (hsmooth.fate w.accesses)⟩

/-- A poll waits until the command is done, unless it gives up. -/
theorem Kept.cmd_tick (h : Kept env image flashId offset bufSz P) (hsmooth : Smooth env image bufSz) {w : World}
    (hw : On P w) : (w.tick env).loader.cmd = 0 := by
  have hpace := hsmooth.pace w.accesses
  show (w.loader.run (env.answer w.accesses) (env.pace w.accesses)).cmd = 0
  rw [show env.pace w.accesses = env.pace w.accesses - 2 + 2 by omega]
  exact cmd_run (h.cmd _ _ hw) _ _

theorem triple_pollWord {read : World → Nat} {predicate : Nat → Bool} (hP : Kept env image flashId offset bufSz P)
    (hdone : ∀ w, On P w → predicate (read w) = true → On Q w)
    (hready : Smooth env image bufSz → ∀ w, On P w → w.loader.cmd = 0 → predicate (read w) = true) :
    Triple (On P) (pollWord env read predicate) (fun rc w => On Q w ∧ On P w ∧ predicate rc = true ∧ rc = read w)
      (Broken env image flashId offset bufSz) := by
  have hreads : ∀ n w, On P w → (n = 0 → ¬Smooth env image bufSz) →
      Outcome (fun rc w => On Q w ∧ On P w ∧ predicate rc = true ∧ rc = read w) (Broken env image flashId offset bufSz)
        (exec (pollReads env read predicate n) w) := by
    intro n
    induction n with
    | zero => exact fun w hw hbroken => ⟨hP.safe _ _ hw, hbroken rfl⟩
    | succ n ih =>
      intro w hw _
      have htick := hP.tick hw
      show Outcome _ _ (if env.fate w.accesses = .ok ∧ predicate (read (w.tick env)) = true then
        (.ok (read (w.tick env)), w.tick env) else exec (pollReads env read predicate n) (w.tick env))
      split_ifs with hread
      · exact ⟨hdone _ htick hread.2, htick, hread.2, rfl⟩
      · refine ih _ htick fun _ hsmooth => hread ⟨hsmooth.fate _, ?_⟩
        exact hready hsmooth _ htick (hP.cmd_tick hsmooth hw)
  intro w hw
  exact hreads _ w hw nofun

/-! ### The loader between the commands, and while it carries one out -/

variable (bufSz)

/-- Nothing to do, and all done that was issued. -/
structure Idle (sofar : List (Order × Bytes)) (l : Loader) (issued : List Order) : Prop where
  cmd : l.cmd = 0
  taking : l.taking = false
  dataSz : l.dataSz = bufSz
  done : l.done = sofar
  issued : issued = sofar.map Prod.fst

/-- Nothing to do, and the words that have been set. -/
def IdleWith (sofar : List (Order × Bytes)) (R : Loader → Prop) (l : Loader) (issued : List Order) : Prop :=
  Idle bufSz sofar l issued ∧ R l

variable (env image)

structure Pinging (sofar : List (Order × Bytes)) (l : Loader) (issued : List Order) : Prop where
  taking : l.taking = false
  dataSz : l.dataSz = bufSz
  done : l.done = sofar
  issued : issued = sofar.map Prod.fst
  stage : (l.cmd = flCmdPing ∧ l.rc = 0) ∨ (l.cmd = 0 ∧ (Smooth env image bufSz → l.rc = flRcOk))

structure Erasing (sofar : List (Order × Bytes)) (c : Order × Bytes) (l : Loader) (issued : List Order) : Prop where
  taking : l.taking = false
  dataSz : l.dataSz = bufSz
  issued : issued = (sofar ++ [c]).map Prod.fst
  stage : (l.cmd = flCmdErase ∧ l.rc = 0 ∧ l.done = sofar ∧ (l.order .erase, []) = c) ∨
    (l.cmd = 0 ∧ l.done = sofar ++ [c] ∧ (Smooth env image bufSz → l.rc = flRcOk))

/-- A chunk is staged in the half that the pointer names; it is taken, and then the command is cleared. -/
structure Programming (flashId : Nat) (sofar : List (Order × Bytes)) (c : Order × Bytes) (l : Loader)
    (issued : List Order) : Prop where
  flashId : l.flashId = flashId
  dataSz : l.dataSz = bufSz
  issued : issued = (sofar ++ [c]).map Prod.fst
  stage : (l.cmd = flCmdProgramVerify ∧ l.taking = false ∧ l.done = sofar ∧
      (l.order .program, (l.buffers l.data).take l.amount) = c) ∨
    (l.cmd = flCmdProgramVerify ∧ l.taking = true ∧ l.done = sofar ++ [c]) ∨
    (l.cmd = 0 ∧ l.taking = false ∧ l.done = sofar ++ [c])

variable {env image bufSz} {sofar : List (Order × Bytes)} {c : Order × Bytes}

theorem kept_idle (R : Loader → Prop) (hdone : sofar <+: plan image flashId offset bufSz) :
    Kept env image flashId offset bufSz (IdleWith bufSz sofar R) where
  step l issued answer _ := by
    rintro ⟨hidle, hR⟩
    rw [step_idle hidle.cmd]
    exact ⟨hidle, hR⟩
  safe l issued := by
    rintro ⟨hidle, -⟩
    refine ⟨?_, hidle.done ▸ hdone⟩
    rw [hidle.issued]
    exact hdone.map _
  cmd l issued h := Or.inl h.1.cmd

theorem kept_pinging (hdone : sofar <+: plan image flashId offset bufSz) :
    Kept env image flashId offset bufSz (Pinging env image bufSz sofar) where
  step l issued answer hanswer h := by
    rcases h.stage with ⟨hcmd, -⟩ | ⟨hcmd, -⟩
    · rw [Loader.step, if_pos hcmd]
      exact ⟨h.taking, h.dataSz, h.done, h.issued, Or.inr ⟨rfl, hanswer⟩⟩
    · rw [step_idle hcmd]
      exact h
  safe l issued h := by
    refine ⟨?_, h.done ▸ hdone⟩
    rw [h.issued]
    exact hdone.map _
  cmd l issued h := by
    rcases h.stage with ⟨hcmd, -⟩ | ⟨hcmd, -⟩
    · exact Or.inr (Or.inl hcmd)
    · exact Or.inl hcmd

theorem prefix_of_append (h : sofar ++ [c] <+: plan image flashId offset bufSz) :
    sofar <+: plan image flashId offset bufSz := (List.prefix_append sofar [c]).trans h

theorem kept_erasing (hdone : sofar ++ [c] <+: plan image flashId offset bufSz) :
    Kept env image flashId offset bufSz (Erasing env image bufSz sofar c) where
  step l issued answer hanswer h := by
    rcases h.stage with ⟨hcmd, -, hbefore, horder⟩ | ⟨hcmd, -⟩
    · rw [Loader.step, if_neg (by rw [hcmd]; decide), if_pos hcmd]
      refine ⟨h.taking, h.dataSz, h.issued, Or.inr ⟨rfl, ?_, hanswer⟩⟩
      show l.done ++ [(l.order .erase, [])] = sofar ++ [c]
      rw [hbefore, horder]
    · rw [step_idle hcmd]
      exact h
  safe l issued h := by
    refine ⟨?_, ?_⟩
    · rw [h.issued]
      exact hdone.map _
    · rcases h.stage with ⟨-, -, hbefore, -⟩ | ⟨-, hafter, -⟩
      · exact hbefore ▸ prefix_of_append hdone
      · exact hafter ▸ hdone
  cmd l issued h := by
    rcases h.stage with ⟨hcmd, -⟩ | ⟨hcmd, -⟩
    · exact Or.inr (Or.inr (Or.inl hcmd))
    · exact Or.inl hcmd

theorem kept_programming (hdone : sofar ++ [c] <+: plan image flashId offset bufSz) :
    Kept env image flashId offset bufSz (Programming bufSz flashId sofar c) where
  step l issued answer _ h := by
    rcases h.stage with ⟨hcmd, htaking, hbefore, horder⟩ | ⟨hcmd, htaking, hafter⟩ | ⟨hcmd, -⟩
    · rw [Loader.step, if_neg (by rw [hcmd]; decide), if_neg (by rw [hcmd]; decide), if_pos hcmd,
        if_neg (by rw [htaking]; exact Bool.false_ne_true)]
      refine ⟨h.flashId, h.dataSz, h.issued, Or.inr (Or.inl ⟨hcmd, rfl, ?_⟩)⟩
      show l.done ++ [(l.order .program, (l.buffers l.data).take l.amount)] = sofar ++ [c]
      rw [hbefore, horder]
    · rw [Loader.step, if_neg (by rw [hcmd]; decide), if_neg (by rw [hcmd]; decide), if_pos hcmd, if_pos htaking]
      exact ⟨h.flashId, h.dataSz, h.issued, Or.inr (Or.inr ⟨rfl, rfl, hafter⟩)⟩
    · rw [step_idle hcmd]
      exact h
  safe l issued h := by
    refine ⟨?_, ?_⟩
    · rw [h.issued]
      exact hdone.map _
    · rcases h.stage with ⟨-, -, hbefore, -⟩ | ⟨-, -, hafter⟩ | ⟨-, -, hafter⟩
      · exact hbefore ▸ prefix_of_append hdone
      · exact hafter ▸ hdone
      · exact hafter ▸ hdone
  cmd l issued h := by
    rcases h.stage with ⟨hcmd, -⟩ | ⟨hcmd, -⟩ | ⟨hcmd, -⟩
    · exact Or.inr (Or.inr (Or.inr hcmd))
    · exact Or.inr (Or.inr (Or.inr hcmd))
    · exact Or.inl hcmd

/-! ### The commands -/

theorem triple_flPing (hdone : sofar <+: plan image flashId offset bufSz) :
    Triple (On (IdleWith bufSz sofar fun _ => True)) (flPing env) (fun _ => On (IdleWith bufSz sofar fun _ => True))
      (Broken env image flashId offset bufSz) := by
  have hidle : ∀ R, Kept env image flashId offset bufSz (IdleWith bufSz sofar R) := fun R => kept_idle R hdone
  refine triple_bind (triple_mww (hidle _) (hidle fun l => l.rc = 0) ?_) fun _ => ?_
  · rintro l issued ⟨hl, -⟩
    exact ⟨⟨hl.cmd, hl.taking, hl.dataSz, hl.done, hl.issued⟩, rfl⟩
  refine triple_bind (triple_mww (hidle _) (kept_pinging hdone) ?_) fun _ => ?_
  · rintro l issued ⟨hl, hrc⟩
    exact ⟨hl.taking, hl.dataSz, hl.done, hl.issued, Or.inl ⟨rfl, hrc⟩⟩
  refine triple_bind (triple_pollWord (kept_pinging hdone)
    (Q := fun l issued => IdleWith bufSz sofar (fun l => Smooth env image bufSz → l.rc = flRcOk) l issued) ?_ ?_)
    fun rc => ?_
  · intro w hw hrc
    rw [decide_eq_true_eq] at hrc
    rcases hw.stage with ⟨-, hzero⟩ | ⟨hcmd, hanswer⟩
    · exact absurd hzero hrc
    · exact ⟨⟨hcmd, hw.taking, hw.dataSz, hw.done, hw.issued⟩, hanswer⟩
  · intro hsmooth w hw hcmd
    rw [decide_eq_true_eq]
    rcases hw.stage with ⟨hping, -⟩ | ⟨-, hanswer⟩
    · rw [hcmd] at hping
      cases hping
    · rw [hanswer hsmooth]
      decide
  refine triple_ite (fun hbad => triple_throw ?_) fun _ => triple_pure ?_
  · rintro w ⟨⟨hl, hanswer⟩, -, -, hread⟩
    exact ⟨(hidle fun _ => True).safe _ _ ⟨hl, trivial⟩, fun hsmooth => hbad (hread.trans (hanswer hsmooth))⟩
  · rintro w ⟨⟨hl, -⟩, -⟩
    exact ⟨hl, trivial⟩

theorem issued_append {issued : List Order} {o : Order} (h : issued = sofar.map Prod.fst) (ho : o = c.1) :
    issued ++ [o] = (sofar ++ [c]).map Prod.fst := by
  rw [h, ho, List.map_append]
  rfl

theorem triple_flErase :
    Triple (On (IdleWith bufSz [] fun _ => True)) (flErase env flashId offset image.length)
      (fun _ => On (IdleWith bufSz [eraseOrder image flashId offset] fun _ => True))
      (Broken env image flashId offset bufSz) := by
  have hnil : [] <+: plan image flashId offset bufSz := List.nil_prefix
  have hone : [] ++ [eraseOrder image flashId offset] <+: plan image flashId offset bufSz := ⟨_, rfl⟩
  have hidle : ∀ R, Kept env image flashId offset bufSz (IdleWith bufSz [] R) := fun R => kept_idle R hnil
  refine triple_bind (triple_flPing hnil) fun _ => ?_
  refine triple_bind (triple_mww (hidle _) (hidle fun l => l.rc = 0) ?_) fun _ => ?_
  · rintro l issued ⟨hl, -⟩
    exact ⟨⟨hl.cmd, hl.taking, hl.dataSz, hl.done, hl.issued⟩, rfl⟩
  refine triple_bind (triple_mww (hidle _) (hidle fun l => l.rc = 0 ∧ l.flashId = flashId) ?_) fun _ => ?_
  · rintro l issued ⟨hl, hrc⟩
    exact ⟨⟨hl.cmd, hl.taking, hl.dataSz, hl.done, hl.issued⟩, hrc, rfl⟩
  refine triple_bind (triple_mww (hidle _)
    (hidle fun l => l.rc = 0 ∧ l.flashId = flashId ∧ l.flashAddr = offset) ?_) fun _ => ?_
  · rintro l issued ⟨hl, hrc, hid⟩
    exact ⟨⟨hl.cmd, hl.taking, hl.dataSz, hl.done, hl.issued⟩, hrc, hid, rfl⟩
  refine triple_bind (triple_mww (hidle _)
    (hidle fun l => l.rc = 0 ∧ (l.order .erase, []) = eraseOrder image flashId offset) ?_) fun _ => ?_
  · rintro l issued ⟨hl, hrc, hid, haddr⟩
    refine ⟨⟨hl.cmd, hl.taking, hl.dataSz, hl.done, hl.issued⟩, hrc, ?_⟩
    rw [eraseOrder, Loader.order]
    dsimp only
    rw [hid, haddr]
  refine triple_bind (triple_write (hidle _) (kept_erasing hone) ?_) fun _ => ?_
  · rintro w ⟨hl, hrc, horder⟩
    exact ⟨hl.taking, hl.dataSz, issued_append hl.issued (congrArg Prod.fst horder),
      Or.inl ⟨rfl, hrc, hl.done, horder⟩⟩
  refine triple_bind (triple_pollWord (kept_erasing hone)
    (Q := IdleWith bufSz [eraseOrder image flashId offset] fun l => Smooth env image bufSz → l.rc = flRcOk) ?_ ?_)
    fun rc => ?_
  · intro w hw hrc
    rw [decide_eq_true_eq] at hrc
    rcases hw.stage with ⟨-, hzero, -⟩ | ⟨hcmd, hdone, hanswer⟩
    · exact absurd hzero hrc
    · exact ⟨⟨hcmd, hw.taking, hw.dataSz, hdone, hw.issued⟩, hanswer⟩
  · intro hsmooth w hw hcmd
    rw [decide_eq_true_eq]
    rcases hw.stage with ⟨herase, -⟩ | ⟨-, -, hanswer⟩
    · rw [hcmd] at herase
      cases herase
    · rw [hanswer hsmooth]
      decide
  refine triple_ite (fun hbad => triple_throw ?_) fun _ => triple_pure ?_
  · rintro w ⟨⟨hl, hanswer⟩, -, -, hread⟩
    have hkept : Kept env image flashId offset bufSz (IdleWith bufSz [eraseOrder image flashId offset] fun _ => True) :=
      kept_idle _ hone
    exact ⟨hkept.safe _ _ ⟨hl, trivial⟩,
      fun hsmooth => hbad (hread.trans (hanswer hsmooth))⟩
  · rintro w ⟨⟨hl, -⟩, -⟩
    exact ⟨hl, trivial⟩

/-- The body of the loop: the chunk is staged, taken and done. -/
theorem triple_programChunk {written n : Nat}
    (hdone : sofar ++ [(⟨.program, flashId, offset + written, n⟩, sub image written n)] <+:
      plan image flashId offset bufSz) (hn : written + n ≤ image.length) :
    Triple (On (IdleWith bufSz sofar fun l => l.flashId = flashId)) (programChunk env image offset written n)
      (fun _ => On (IdleWith bufSz (sofar ++ [(⟨.program, flashId, offset + written, n⟩, sub image written n)])
        fun l => l.flashId = flashId))
      (Broken env image flashId offset bufSz) := by
  have hchunk : (sub image written n).length = n := length_sub hn
  have hidle : ∀ R, Kept env image flashId offset bufSz (IdleWith bufSz sofar R) := fun R =>
    kept_idle R (prefix_of_append hdone)
  refine triple_bind (Q := fun _ => On (IdleWith bufSz sofar fun l => l.flashId = flashId))
    (triple_when (fun hshort => absurd hchunk hshort) fun _ _ hw => hw) fun _ => ?_
  refine triple_bind (triple_mdw (hidle _)) fun buffer => ?_
  refine Triple.imp (P := On (IdleWith bufSz sofar fun l => l.flashId = flashId ∧ l.data = buffer)) ?_
    (fun w hw => ⟨hw.1.1, hw.1.2, hw.2.symm⟩) (fun _ _ h => h) (fun _ h => h)
  refine triple_bind (triple_mww (hidle _)
    (hidle fun l => l.flashId = flashId ∧ (l.buffers l.data).take n = sub image written n) ?_) fun _ => ?_
  · rintro l issued ⟨hl, hid, hdata⟩
    refine ⟨⟨hl.cmd, hl.taking, hl.dataSz, hl.done, hl.issued⟩, hid, ?_⟩
    show (if l.data = buffer then sub image written n ++ _ else l.buffers l.data).take n = _
    rw [if_pos hdata, List.take_left' hchunk]
  refine triple_bind (triple_mww (hidle _) (hidle fun l => l.flashId = flashId ∧
    (l.buffers l.data).take n = sub image written n ∧ l.flashAddr = offset + written) ?_) fun _ => ?_
  · rintro l issued ⟨hl, hid, htake⟩
    exact ⟨⟨hl.cmd, hl.taking, hl.dataSz, hl.done, hl.issued⟩, hid, htake, rfl⟩
  refine triple_bind (triple_mww (hidle _) (hidle fun l => l.flashId = flashId ∧
    (l.order .program, (l.buffers l.data).take l.amount) =
      (⟨.program, flashId, offset + written, n⟩, sub image written n)) ?_) fun _ => ?_
  · rintro l issued ⟨hl, hid, htake, haddr⟩
    refine ⟨⟨hl.cmd, hl.taking, hl.dataSz, hl.done, hl.issued⟩, hid, ?_⟩
    show ((⟨.program, l.flashId, l.flashAddr, n⟩, (l.buffers l.data).take n) : Order × Bytes) = _
    rw [hid, haddr, htake]
  refine triple_bind (triple_write (hidle _) (kept_programming hdone) ?_) fun _ => ?_
  · rintro w ⟨hl, hid, horder⟩
    exact ⟨hid, hl.dataSz, issued_append hl.issued (congrArg Prod.fst horder),
      Or.inl ⟨rfl, hl.taking, hl.done, horder⟩⟩
  refine triple_bind (triple_pollWord (kept_programming hdone) (Q := IdleWith bufSz
    (sofar ++ [(⟨.program, flashId, offset + written, n⟩, sub image written n)]) fun l => l.flashId = flashId) ?_ ?_)
    fun _ => triple_pure fun _ hw => hw.1
  · intro w hw hcmd
    rw [decide_eq_true_eq] at hcmd
    rcases hw.stage with ⟨hbusy, -⟩ | ⟨hbusy, -⟩ | ⟨-, htaking, hdone⟩
    · rw [hcmd] at hbusy
      cases hbusy
    · rw [hcmd] at hbusy
      cases hbusy
    · exact ⟨⟨hcmd, htaking, hw.dataSz, hdone, hw.issued⟩, hw.flashId⟩
  · intro _ w _ hcmd
    rw [hcmd]
    decide

theorem triple_programLoop (hbuf : 0 < bufSz) (written : Nat) (hwritten : written ≤ image.length)
    (hplan : plan image flashId offset bufSz = sofar ++ chunkOrders image flashId offset bufSz hbuf written) :
    Triple (On (IdleWith bufSz sofar fun l => l.flashId = flashId)) (programLoop env image offset bufSz hbuf written)
      (fun _ => On (IdleWith bufSz (plan image flashId offset bufSz) fun _ => 0 < bufSz))
      (Broken env image flashId offset bufSz) := by
  induction hleft : image.length - written using Nat.strongRecOn generalizing written sofar with
  | ind left ih =>
    rw [programLoop]
    rw [chunkOrders] at hplan
    split_ifs at hplan ⊢ with hmore
    · have hprefix : sofar ++ [(⟨.program, flashId, offset + written, min bufSz (image.length - written)⟩,
          sub image written (min bufSz (image.length - written)))] <+: plan image flashId offset bufSz := by
        rw [hplan]
        exact ⟨_, (List.append_cons _ _ _).symm⟩
      refine triple_bind (triple_programChunk hprefix (by omega)) fun _ => ?_
      refine ih _ ?_ _ (by omega) ?_ rfl
      · omega
      · rw [hplan, List.append_cons]
    · rw [List.append_nil] at hplan
      rw [hplan]
      exact triple_pure fun w hw => ⟨hw.1, hbuf⟩

theorem triple_flProgram :
    Triple (On (IdleWith bufSz [eraseOrder image flashId offset] fun _ => True)) (flProgram env image flashId offset)
      (fun _ => On (IdleWith bufSz (plan image flashId offset bufSz) fun _ => 0 < bufSz))
      (Broken env image flashId offset bufSz) := by
  have hone : [eraseOrder image flashId offset] <+: plan image flashId offset bufSz := ⟨_, rfl⟩
  have hidle : ∀ R, Kept env image flashId offset bufSz (IdleWith bufSz [eraseOrder image flashId offset] R) :=
    fun R => kept_idle R hone
  refine triple_bind (triple_flPing hone) fun _ => ?_
  refine triple_ite (fun hempty => triple_throw fun w hw => ⟨(hidle _).safe _ _ hw, fun hsmooth => ?_⟩) fun hne => ?_
  · exact hsmooth.image (List.length_eq_zero_iff.mp hempty)
  refine triple_bind (triple_mdw (hidle _)) fun size => ?_
  by_cases hsize : size = bufSz
  · subst hsize
    split_ifs with hbuf
    · have hplan : plan image flashId offset size =
          [eraseOrder image flashId offset] ++ chunkOrders image flashId offset size hbuf 0 := by
        rw [plan, programOrders, dif_pos hbuf]
        rfl
      have hall : ∀ R, Kept env image flashId offset size (IdleWith size (plan image flashId offset size) R) :=
        fun R => kept_idle R (List.prefix_refl _)
      refine triple_bind (Triple.imp (triple_mww (hidle fun _ => True) (hidle fun l => l.flashId = flashId) ?_)
        (fun w hw => hw.1) (fun _ _ h => h) (fun _ h => h)) fun _ => ?_
      · rintro l issued ⟨hl, -⟩
        exact ⟨⟨hl.cmd, hl.taking, hl.dataSz, hl.done, hl.issued⟩, rfl⟩
      refine triple_bind (triple_programLoop hbuf 0 (Nat.zero_le _) hplan) fun _ => ?_
      refine triple_bind (triple_pollWord (hall _) (fun w hw _ => hw)
        fun hsmooth w _ _ => decide_eq_true (hsmooth.finalState w.accesses)) fun _ => ?_
      refine triple_bind (Triple.imp (triple_mdw (hall _)) (fun w hw => hw.1) (fun _ _ h => h) (fun _ h => h))
        fun rc => ?_
      refine triple_ite (fun hbad => triple_throw ?_) fun _ => triple_pure fun w hw => hw.1
      rintro w ⟨hw, hread⟩
      exact ⟨(hall _).safe _ _ hw, fun hsmooth => hbad (hread.trans (hsmooth.finalRc w.accesses))⟩
    · exact triple_throw fun w hw => ⟨(hidle _).safe _ _ hw.1, fun hsmooth => hbuf hsmooth.buffer⟩
  · rintro w ⟨⟨hl, -⟩, hread⟩
    exact absurd (hread.trans hl.dataSz) hsize

theorem triple_softwareReset (p : Prop) (hdone : sofar <+: plan image flashId offset bufSz) :
    Triple (On (IdleWith bufSz sofar fun _ => p)) (softwareReset env) (fun _ => On (IdleWith bufSz sofar fun _ => p))
      (Broken env image flashId offset bufSz) := by
  have hkept : Kept env image flashId offset bufSz (IdleWith bufSz sofar fun _ => p) := kept_idle _ hdone
  have hwrite : Triple (On (IdleWith bufSz sofar fun _ => p)) (mww env id)
      (fun _ => On (IdleWith bufSz sofar fun _ => p)) (On (IdleWith bufSz sofar fun _ => p)) := by
    intro w hw
    have htick := hkept.tick hw
    show Outcome _ _ (mww env id w)
    rw [mww, write]
    cases env.fate w.accesses <;> exact htick
  refine triple_bind (triple_attempt hwrite) fun r => triple_pure fun w hw => ?_
  cases r <;> exact hw

/-- **Every run follows the list.** -/
theorem triple_flashImage :
    Triple (On (IdleWith bufSz [] fun _ => True)) (flashImage env image flashId offset)
      (fun _ => On (IdleWith bufSz (plan image flashId offset bufSz) fun _ => 0 < bufSz))
      (Broken env image flashId offset bufSz) :=
  triple_bind triple_flErase fun _ => triple_bind triple_flProgram fun _ =>
    triple_softwareReset _ (List.prefix_refl _)

end Access

/-! ### The range and the window -/

/-- What the commands of a run are to be, however it ends. -/
structure Meets (env : Env) (image : Bytes) (flashId offset bufSz : Nat) (r : Except Fault Unit × World) : Prop where
  sized : ∀ o ∈ r.2.issued, o.kind = .program → 0 < o.amount ∧ o.amount ≤ bufSz
  staged : (r.2.loader.done.map Prod.snd).flatten <+: image
  /-- A run that returns has erased the range, programmed one piece of it after the other, and written the image. -/
  complete : r.1 = .ok () → ∃ programs, r.2.issued = ⟨.erase, flashId, offset, image.length⟩ :: programs ∧
    (∀ o ∈ programs, o.kind = .program) ∧ Covers offset programs (offset + image.length) ∧
    r.2.loader.done.map Prod.fst = r.2.issued ∧ (r.2.loader.done.map Prod.snd).flatten = image
  returns : Smooth env image bufSz → r.1 = .ok ()
  window : ∀ o ∈ r.2.issued, o.addr + o.amount ≤ qspiXipRange

section Range

variable {env : Env} {image : Bytes} {flashId offset bufSz : Nat}

theorem mem_plan {c : Order × Bytes} (hc : c ∈ plan image flashId offset bufSz) :
    (c.1.kind = .program → 0 < c.1.amount ∧ c.1.amount ≤ bufSz) ∧ c.1.addr + c.1.amount ≤ offset + image.length := by
  rcases List.mem_cons.mp hc with rfl | hc
  · exact ⟨nofun, Nat.le_refl _⟩
  · rw [programOrders] at hc
    split_ifs at hc with hbuf
    · obtain ⟨-, hpos, hmax, hend⟩ := mem_chunkOrders hc
      exact ⟨fun _ => ⟨hpos, hmax⟩, hend⟩
    · cases hc

theorem prefix_flatten_plan : ((plan image flashId offset bufSz).map Prod.snd).flatten <+: image := by
  rw [plan, List.map_cons, List.flatten_cons, programOrders]
  split_ifs with hbuf
  · rw [flatten_chunkOrders 0 (Nat.zero_le _)]
    exact List.prefix_refl image
  · exact List.nil_prefix

theorem prefix_flatten {α : Type} {k l : List (List α)} (h : k <+: l) : k.flatten <+: l.flatten := by
  obtain ⟨rest, rfl⟩ := h
  rw [List.flatten_append]
  exact List.prefix_append _ _

/-- All but the window holds of every run. -/
theorem meets_of_fits (hfits : offset + image.length ≤ qspiXipRange) {l : Loader} (hl : Idle bufSz [] l []) :
    Meets env image flashId offset bufSz (exec (flashImage env image flashId offset) ⟨l, 0, []⟩) := by
  have hrun := @triple_flashImage env image flashId offset bufSz ⟨l, 0, []⟩ ⟨hl, trivial⟩
  have hkept : Kept env image flashId offset bufSz
      (IdleWith bufSz (plan image flashId offset bufSz) fun _ => 0 < bufSz) := kept_idle _ (List.prefix_refl _)
  have hmap : ∀ o ∈ (plan image flashId offset bufSz).map Prod.fst,
      (o.kind = .program → 0 < o.amount ∧ o.amount ≤ bufSz) ∧ o.addr + o.amount ≤ offset + image.length := by
    intro o ho
    obtain ⟨c, hc, rfl⟩ := List.mem_map.mp ho
    exact mem_plan hc
  cases hexec : exec (flashImage env image flashId offset) ⟨l, 0, []⟩ with
  | mk r w =>
    rw [hexec] at hrun
    have hsafe : Safe image flashId offset bufSz w.loader w.issued := by
      cases r with
      | ok _ => exact hkept.safe _ _ hrun
      | error _ => exact hrun.1
    refine ⟨fun o ho => (hmap o (hsafe.1.subset ho)).1,
      (prefix_flatten (hsafe.2.map _)).trans prefix_flatten_plan, ?_, ?_,
      fun o ho => Nat.le_trans (hmap o (hsafe.1.subset ho)).2 hfits⟩
    · intro hok
      cases hok
      obtain ⟨hidle, hbuf⟩ := hrun
      have hprograms : programOrders image flashId offset bufSz = chunkOrders image flashId offset bufSz hbuf 0 :=
        dif_pos hbuf
      refine ⟨(programOrders image flashId offset bufSz).map Prod.fst, hidle.issued, ?_, ?_, ?_, ?_⟩
      · intro o ho
        obtain ⟨c, hc, rfl⟩ := List.mem_map.mp ho
        rw [hprograms] at hc
        exact (mem_chunkOrders hc).1
      · rw [hprograms]
        exact covers_chunkOrders 0 (Nat.zero_le _)
      · rw [hidle.issued, hidle.done]
      · rw [hidle.done, plan, List.map_cons, List.flatten_cons, hprograms, flatten_chunkOrders 0 (Nat.zero_le _)]
        rfl
    · intro hsmooth
      cases r with
      | ok _ => rfl
      | error _ => exact absurd hsmooth hrun.2

end Range

/-- The address in the window that a call means. -/
def xipStart (addr : Option Int) : Int :=
  match addr with
  | none => qspiXipBase
  | some addr => if addr = 0 then qspiXipBase else addr

theorem xipToFlashOffset_eq (addr : Option Int) : xipToFlashOffset addr =
    if qspiXipBase ≤ xipStart addr ∧ xipStart addr < qspiXipEnd then .ok (xipStart addr - qspiXipBase).toNat
    else .error (.outsideWindow (xipStart addr)) := by
  cases addr with
  | none => rfl
  | some addr =>
    by_cases hzero : addr = 0
    · rw [hzero]
      rfl
    · rw [xipToFlashOffset, xipStart, if_neg hzero, if_neg hzero]

/-- A link on which every access works, to a loader that is quick. -/
def smoothEnv : Env where
  pace _ := 2
  answer _ := flRcOk
  fate _ := .ok
  budget _ := 0
  finalState _ := 1
  finalRc _ := flRcOk

theorem smooth_smoothEnv {image : Bytes} (h : image ≠ []) : Smooth smoothEnv image 1 :=
  ⟨fun _ => rfl, fun _ => Nat.le_refl 2, fun _ => rfl, fun _ => rfl, fun _ => rfl, h, Nat.one_pos⟩

/-- A loader after its bring-up, with a buffer of this size. -/
def freshLoader (bufSz : Nat) : Loader := ⟨0, 0, 0, 0, 0, .lower, bufSz, fun _ => [], false, []⟩

theorem idle_freshLoader (bufSz : Nat) : Idle bufSz [] (freshLoader bufSz) [] := ⟨rfl, rfl, rfl, rfl, rfl⟩

/-- **The loader is made to write the image, all of it and nothing else; inside the window if it fits.** -/
theorem flashImage_meets_iff (addr : Option Int) (image : Bytes) :
    (∀ offset, xipToFlashOffset addr = .ok offset → ∀ env flashId bufSz l, Idle bufSz [] l [] →
      Meets env image flashId offset bufSz (exec (flashImage env image flashId offset) ⟨l, 0, []⟩)) ↔
    (qspiXipBase ≤ xipStart addr → xipStart addr < qspiXipEnd → xipStart addr + image.length ≤ qspiXipEnd) := by
  rw [xipToFlashOffset_eq, qspiXipEnd]
  constructor
  · intro h hstart hend
    rw [if_pos ⟨hstart, hend⟩] at h
    by_cases himage : image = []
    · rw [himage, List.length_nil]
      omega
    · have hmeets := h _ rfl smoothEnv 0 1 (freshLoader 1) (idle_freshLoader 1)
      obtain ⟨programs, hissued, -⟩ := hmeets.complete (hmeets.returns (smooth_smoothEnv himage))
      have hwindow := hmeets.window ⟨.erase, 0, (xipStart addr - qspiXipBase).toNat, image.length⟩
        (hissued ▸ List.mem_cons_self)
      dsimp only at hwindow
      omega
  · intro h offset hoffset env flashId bufSz l hl
    split_ifs at hoffset with hinside
    cases hoffset
    have hfits := h hinside.1 hinside.2
    exact meets_of_fits (by omega) hl

/-- An image of two bytes at the last address of the window. -/
theorem image_beyond_window : ¬∀ (addr : Option Int) (image : Bytes) (offset : Nat),
    xipToFlashOffset addr = .ok offset → ∀ env flashId bufSz l, Idle bufSz [] l [] →
      Meets env image flashId offset bufSz (exec (flashImage env image flashId offset) ⟨l, 0, []⟩) := by
  intro h
  have hmeets := h (some 0x17ffffff) [0, 0] 0x1ffffff rfl smoothEnv 0 1 (freshLoader 1) (idle_freshLoader 1)
  obtain ⟨programs, hissued, -⟩ := hmeets.complete (hmeets.returns (smooth_smoothEnv (List.cons_ne_nil _ _)))
  have hwindow := hmeets.window ⟨.erase, 0, 0x1ffffff, 2⟩ (hissued ▸ List.mem_cons_self)
  exact absurd hwindow (by decide)

end Lager.Debug.FlashLoader
