import SpecDraft.Proofs.Session.Law

/-!
# What operations leave alone

A frame is a relation between disks that goes on from change to change. To stay within a frame is a
law (`Disk.Frame.law`): the disk afterwards is related to the one before, whatever the result, and
the clock stands still meanwhile.
-/
set_option autoImplicit false

namespace SpecDraft.Disk

/-- A relation between disks that every disk has to itself, and that goes on from change to
change. -/
structure Frame where
  Holds : Disk → Disk → Prop
  refl (disk : Disk) : Holds disk disk
  trans {a b c : Disk} : Holds a b → Holds b c → Holds a c

namespace Frame

/-- Whether a session comes after another one at the same time and within a frame. -/
structure Keeps (frame : Frame) (old new : Session) : Prop where
  now : new.now = old.now
  disk : frame.Holds old.disk new.disk

section Keeps
variable {frame : Frame} {a b c : Session}

theorem Keeps.of_alike (h : a.Alike b) : frame.Keeps a b := ⟨h.now, h.disk ▸ frame.refl a.disk⟩

theorem Keeps.refl (frame : Frame) (session : Session) : frame.Keeps session session :=
  .of_alike (.refl session)

theorem Keeps.trans (hab : frame.Keeps a b) (hbc : frame.Keeps b c) : frame.Keeps a c :=
  ⟨hbc.now.trans hab.now, frame.trans hab.disk hbc.disk⟩

end Keeps

/-- The law of what stays within a frame. -/
def law (frame : Frame) : Effect.Law where
  Holds effect := ∀ session, frame.Keeps session (effect.run session).2
  quiet h session := .of_alike (h session)
  pure _ := .refl frame
  bind h hnext session := (h session).trans (hnext _ _)
  ask h _ session := h session session

section Law
variable {frame : Frame} {α : Type} {action : Action α}

theorem law_onDisk {action : DiskM α} (h : Action.Keeps frame.Holds action) :
    frame.law.OfAction (onDisk action) :=
  fun session => ⟨rfl, h session.disk⟩

theorem law_run (h : frame.law.OfAction action) {session after : Session}
    {result : Except Failure α} (hrun : action.run session = (result, after)) :
    frame.Keeps session after := by
  have hkeeps : frame.Keeps session (action.run session).2 := h session
  rwa [hrun] at hkeeps

end Law
end Frame
end SpecDraft.Disk
