import EmbeddedSystem.Switch.Driver

/-! The loop of `coffer_app.c`. The program counter stands at a library call or at a test of the
results; `sleep` and the messages leave no trace here. -/

namespace EmbeddedSystem.Coffer

open Kernel Switch

def myPassword : Fin 5 → ℤ × ℤ := ![(1, 0), (2, 1), (3, 0), (3, 1), (1, 0)]

inductive Pc
  | closing | getting | outer
  | recv | measure | judge | verdict
  | openRecv | openMeasure | openTest
  deriving DecidableEq

inductive DeviceCall
  | speakerCorrect | stepMotorOpen | speakerIncorrect | stepMotorClose
  deriving DecidableEq

structure App where
  key : ℤ
  flag : ℤ
  incorrect : ℤ
  count : ℤ
  ret : ℤ
  distance : ℤ
  pc : Pc

def App.init (key : ℤ) : App := ⟨key, 0, 0, 0, 0, 0, .closing⟩

def Pc.call : Pc → Option (Command × Pc)
  | .closing => some (.queueClose, .getting)
  | .getting => some (.queueGet, .outer)
  | .recv => some (.switchRecv, .measure)
  | .measure => some (.ultrasonicRecv, .judge)
  | .openRecv => some (.switchRecv, .openMeasure)
  | .openMeasure => some (.ultrasonicRecv, .openTest)
  | _ => none

def App.resume (a : App) (cmd : Command) (ret : ℤ) (pc : Pc) : App :=
  match cmd with
  | .switchRecv => { a with ret := ret, pc := pc }
  | .ultrasonicRecv => { a with distance := ret, pc := pc }
  | _ => { a with pc := pc }

def App.start (a : App) : App :=
  if a.flag = 0 then { a with count := 0, incorrect := 0, pc := .recv }
  else { a with pc := .openRecv }

def App.judge (a : App) : Except Fault App :=
  if a.ret < 0 ∨ a.count ≥ 5 then
    return { a with pc := .verdict }
  else do
    let i ← arrayIndex 5 a.count
    let distance := if a.distance ≥ 15 then 1 else 0
    let incorrect :=
      if (myPassword i).1 ≠ a.ret ∨ (myPassword i).2 ≠ distance then 1 else a.incorrect
    return { a with
      distance := distance, incorrect := incorrect, count := a.count + 1, pc := .recv }

def App.verdict (a : App) : App × List DeviceCall :=
  if a.incorrect = 0 ∧ a.count = 5 then
    ({ a with flag := 1, pc := .outer }, [.speakerCorrect, .stepMotorOpen])
  else if a.count ≠ 0 then
    ({ a with pc := .outer }, [.speakerIncorrect])
  else
    ({ a with pc := .outer }, [])

def App.openTest (a : App) : App × List DeviceCall :=
  if a.ret > 0 then
    ({ a with flag := 0, pc := .outer }, [.stepMotorClose])
  else
    ({ a with pc := .openRecv }, [])

/-- A call of `switch_lib.c`: open the device, issue the ioctl, close the device. -/
def libCall {w : ℕ} (opened : Bool) (s : Driver w) (cmd : Command) (key : ℤ) :
    Except Fault (Driver w × Reply w) :=
  if opened then do
    let (t, y) ← switchIoctl s cmd key
    return (t, ⟨ioctlReturn y.ret, y.effect⟩)
  else
    return (s, ⟨-1, none⟩)

lemma libCall_cases {w : ℕ} {opened : Bool} {s t : Driver w} {cmd : Command} {key : ℤ}
    {y : Reply w} (h : libCall opened s cmd key = .ok (t, y)) :
    opened = false ∧ t = s ∧ y = ⟨-1, none⟩ ∨
      opened = true ∧ ∃ z, switchIoctl s cmd key = .ok (t, z) ∧
        y = ⟨ioctlReturn z.ret, z.effect⟩ := by
  rw [libCall] at h
  split at h
  · next hopened =>
    obtain ⟨⟨t', z⟩, hz, h⟩ := bind_ok.mp h
    cases h
    exact Or.inr ⟨hopened, z, hz, rfl⟩
  · next hopened =>
    cases h
    exact Or.inl ⟨by simpa using hopened, rfl, rfl⟩

end EmbeddedSystem.Coffer
