import Lager.Lib.Bytes
import Lager.Lib.Triple
import Lager.Py.Text

/-!
# Programming the flash through the loader

`flash_image` of `debug/da1469x_loader.py` after the loader has come up: `_fl_erase`, `_fl_program` and
`_software_reset`, with `xip_to_flash_offset`, which checks the address. The host reaches the loader through words of
its memory, one access at a time, and the loader works in between as it likes. It obeys the handshake: a program
command takes the bytes of the half of the buffer that `fl_cmd_data` points at, then turns the pointer to the other
half, and only then clears `fl_cmd`.
-/

namespace Lager.Debug.FlashLoader

open Lager.Py Lager.Lib

/-! ### The address -/

/-- `QSPI_XIP_BASE` -/
def qspiXipBase : Int := 0x16000000

/-- `QSPI_XIP_RANGE` -/
def qspiXipRange : Nat := 0x02000000

/-- `QSPI_XIP_END` -/
def qspiXipEnd : Int := qspiXipBase + qspiXipRange

inductive Fault
  /-- "flash address … is outside the DA1469x QSPI XIP window" -/
  | outsideWindow (addr : Int)
  /-- "flash_loader did not reach expected state for …" -/
  | pollTimeout
  | pingReturned (rc : Nat)
  | eraseReturned (addr amount rc : Nat)
  | emptyImage
  | noBuffer
  | shortRead (wanted got offset : Nat)
  | programReturned (rc written : Nat)
  /-- `OpenOcdRpcError` -/
  | rpcError

/-- `xip_to_flash_offset` -/
def xipToFlashOffset (addr : Option Int) : Except Fault Nat :=
  match addr with
  | none => .ok 0
  | some addr =>
    if addr = 0 then .ok 0
    else if qspiXipBase ≤ addr ∧ addr < qspiXipEnd then .ok (addr - qspiXipBase).toNat
    else .error (.outsideWindow addr)

/-! ### The loader -/

inductive Kind
  | erase
  | program
  deriving DecidableEq

/-- A command with the words it is given. -/
structure Order where
  kind : Kind
  flashId : Nat
  addr : Nat
  amount : Nat
  deriving DecidableEq

/-- The two halves of `fl_data`. -/
inductive Half
  | lower
  | upper
  deriving DecidableEq

def Half.other : Half → Half
  | .lower => .upper
  | .upper => .lower

/-- The words of the loader. -/
structure Loader where
  cmd : Nat
  rc : Nat
  flashId : Nat
  flashAddr : Nat
  amount : Nat
  /-- `fl_cmd_data` -/
  data : Half
  /-- `fl_cmd_data_sz` -/
  dataSz : Nat
  buffers : Half → Bytes
  /-- A program command has been taken and `fl_cmd` is not cleared yet. -/
  taking : Bool
  /-- What has been carried out, with the bytes it took. -/
  done : List (Order × Bytes)

def flCmdPing : Nat := 1

def flCmdErase : Nat := 3

def flCmdProgramVerify : Nat := 5

def Loader.order (l : Loader) (kind : Kind) : Order := ⟨kind, l.flashId, l.flashAddr, l.amount⟩

/-- One step of the loader; `answer` is the return code of a ping or an erase. -/
def Loader.step (answer : Nat) (l : Loader) : Loader :=
  if l.cmd = flCmdPing then { l with cmd := 0, rc := answer }
  else if l.cmd = flCmdErase then { l with cmd := 0, rc := answer, done := l.done ++ [(l.order .erase, [])] }
  else if l.cmd = flCmdProgramVerify then
    -- `fl_rotate_databuf` comes before `fl_cmd` is cleared
    if l.taking then { l with cmd := 0, taking := false }
    else { l with taking := true, data := l.data.other,
                  done := l.done ++ [(l.order .program, (l.buffers l.data).take l.amount)] }
  else l

def Loader.run (answer : Nat) (l : Loader) : Nat → Loader
  | 0 => l
  | n + 1 => (l.step answer).run answer n

/-! ### The debug link -/

/-- What becomes of an access: a failed write may have reached the memory. -/
inductive Fate
  | ok
  | lost
  | applied
  deriving DecidableEq

/-- What is not the host's doing, for each access. -/
structure Env where
  /-- How many steps the loader has made since the access before. -/
  pace : Nat → Nat
  answer : Nat → Nat
  fate : Nat → Fate
  /-- How many more reads of a poll fit before its deadline. -/
  budget : Nat → Nat
  /-- What `fl_state` and the last `fl_cmd_rc` read as, after the image. -/
  finalState : Nat → Nat
  finalRc : Nat → Nat

structure World where
  loader : Loader
  accesses : Nat
  /-- The erase and program commands that the host has written to `fl_cmd`. -/
  issued : List Order

abbrev Host := Prog World Fault

/-- The loader works on, then comes the access. -/
def World.tick (env : Env) (w : World) : World :=
  { w with loader := w.loader.run (env.answer w.accesses) (env.pace w.accesses), accesses := w.accesses + 1 }

/-- One access that changes the memory, or not. -/
def write (env : Env) (change : World → World) : Host Unit := fun w =>
  let w' := w.tick env
  match env.fate w.accesses with
  | .ok => (.ok (), change w')
  | .lost => (.error .rpcError, w')
  | .applied => (.error .rpcError, change w')

/-- `rpc.mww` of a word that is no command. -/
def mww (env : Env) (set : Loader → Loader) : Host Unit := write env fun w => { w with loader := set w.loader }

/-- `rpc.mww(fl_cmd, …)` of an erase or program command. -/
def issue (env : Env) (kind : Kind) : Host Unit := write env fun w =>
  { w with loader := { w.loader with cmd := match kind with | .erase => flCmdErase | .program => flCmdProgramVerify },
           issued := w.issued ++ [w.loader.order kind] }

/-- `rpc.mdw` -/
def mdw {α : Type} (env : Env) (read : World → α) : Host α := fun w =>
  let w' := w.tick env
  if env.fate w.accesses = .ok then (.ok (read w'), w') else (.error .rpcError, w')

/-- `_poll_word`: a read that fails is one that does not match. -/
def pollReads (env : Env) (read : World → Nat) (predicate : Nat → Bool) : Nat → Host Nat
  | 0 => throw .pollTimeout
  | n + 1 => fun w =>
    let w' := w.tick env
    if env.fate w.accesses = .ok ∧ predicate (read w') = true then (.ok (read w'), w')
    else exec (pollReads env read predicate n) w'

def pollWord (env : Env) (read : World → Nat) (predicate : Nat → Bool) : Host Nat := fun w =>
  exec (pollReads env read predicate (env.budget w.accesses + 1)) w

/-! ### The host -/

/-- `FL_RC_OK` -/
def flRcOk : Nat := 1

def flPing (env : Env) : Host Unit := do
  mww env fun l => { l with rc := 0 }
  mww env fun l => { l with cmd := flCmdPing }
  let rc ← pollWord env (fun w => w.loader.rc) (· ≠ 0)
  if rc ≠ flRcOk then throw (.pingReturned rc) else pure ()

def flErase (env : Env) (flashId addr amount : Nat) : Host Unit := do
  flPing env
  mww env fun l => { l with rc := 0 }
  mww env fun l => { l with flashId := flashId }
  mww env fun l => { l with flashAddr := addr }
  mww env fun l => { l with amount := amount }
  issue env .erase
  let rc ← pollWord env (fun w => w.loader.rc) (· ≠ 0)
  if rc ≠ flRcOk then throw (.eraseReturned addr amount rc) else pure ()

/-- `rpc.load_image` of a chunk to the half at an address. -/
def loadImage (env : Env) (chunk : Bytes) (half : Half) : Host Unit :=
  mww env fun l =>
    { l with buffers := fun h => if h = half then chunk ++ (l.buffers h).drop chunk.length else l.buffers h }

/-- The body of the loop: `this_chunk` bytes of the image from `written` on. -/
def programChunk (env : Env) (image : Bytes) (offset written thisChunk : Nat) : Host Unit := do
  let chunk := sub image written thisChunk
  when (chunk.length ≠ thisChunk) (throw (.shortRead thisChunk chunk.length written))
  let buffer ← mdw env fun w => w.loader.data
  loadImage env chunk buffer
  mww env fun l => { l with flashAddr := offset + written }
  mww env fun l => { l with amount := thisChunk }
  issue env .program
  let _ ← pollWord env (fun w => w.loader.cmd) (· = 0)
  pure ()

/-- `while written < file_size` -/
def programLoop (env : Env) (image : Bytes) (offset bufSz : Nat) (hbuf : 0 < bufSz) (written : Nat) : Host Unit :=
  if h : written < image.length then do
    programChunk env image offset written (min bufSz (image.length - written))
    programLoop env image offset bufSz hbuf (written + min bufSz (image.length - written))
  else pure ()
termination_by image.length - written
decreasing_by omega

def flProgram (env : Env) (image : Bytes) (flashId offset : Nat) : Host Unit := do
  flPing env
  if image.length = 0 then throw .emptyImage
  else do
    let bufSz ← mdw env fun w => w.loader.dataSz
    if h : 0 < bufSz then do
      mww env fun l => { l with flashId := flashId }
      programLoop env image offset bufSz h 0
      let _ ← pollWord env (fun w => env.finalState w.accesses) (· = 1)
      let rc ← mdw env fun w => env.finalRc w.accesses
      if rc ≠ flRcOk then throw (.programReturned rc image.length) else pure ()
    else throw .noBuffer

/-- `_software_reset`: the chip may reset before it acknowledges the write. -/
def softwareReset (env : Env) : Host Unit := do
  let _ ← attempt (mww env id)
  pure ()

/-- `flash_image` from `_fl_erase` on. -/
def flashImage (env : Env) (image : Bytes) (flashId offset : Nat) : Host Unit := do
  flErase env flashId offset image.length
  flProgram env image flashId offset
  softwareReset env

end Lager.Debug.FlashLoader
