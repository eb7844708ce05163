import SpecDraft.Proofs.File.Rewriting
import SpecDraft.Proofs.Session.Question

/-!
# Doing the same once more

An effect that only reads what does not change meanwhile, and writes each of its files once, can be
done once more later: it has the same result, and nothing on the disk looks different afterwards
(`Rerun.Repeats`). Between the two runs files may be written elsewhere. A whole repeats because its
parts do, as long as no part writes where another one does.
-/
set_option autoImplicit false

namespace SpecDraft

/-- What two runs have in common: where they write, where something else is written between them,
and what both rely on. -/
structure Rerun where
  anchor : String
  artifacts : Set Location
  others : Set Location
  ready : Disk → Prop
  ready_of_grows {old new : Disk} : Disk.Grows anchor artifacts old new → ready old → ready new

namespace Rerun

/-- The places where files may be written between two runs that write at some places. -/
def elsewhere (rerun : Rerun) (places : Set Location) : Set Location :=
  (rerun.artifacts ∪ rerun.others) \ places

/-- Whether an effect ends, in a session, with a result that it had before, and the disk looks the
same afterwards. -/
def Again {α : Type} (rerun : Rerun) (places : Set Location) (effect : Effect α) (x : α)
    (second : Session) : Prop :=
  ∃ last, effect.run second = (x, last) ∧
    Disk.Grows rerun.anchor places second.disk last.disk ∧
    ∀ spot, last.disk.look spot = second.disk.look spot

/-- Whether an effect that writes at some places repeats what it did, for results that count. -/
structure Repeats {α : Type} (rerun : Rerun) (places : Set Location) (counts : α → Prop)
    (effect : Effect α) : Prop where
  within : places ⊆ rerun.artifacts
  grows {first mid : Session} {x : α} : effect.run first = (x, mid) → counts x →
    rerun.ready first.disk → Disk.Grows rerun.anchor places first.disk mid.disk
  again {first mid second : Session} {x : α} : effect.run first = (x, mid) → counts x →
    rerun.ready first.disk → rerun.ready second.disk →
    Disk.Grows rerun.anchor (rerun.elsewhere places) mid.disk second.disk →
    rerun.Again places effect x second

section Repeats
variable {rerun : Rerun} {α β : Type} {places more : Set Location} {counts : α → Prop}
  {effect : Effect α} {x : α} {first mid second : Session}

theorem elsewhere_anti (h : places ⊆ more) : rerun.elsewhere more ⊆ rerun.elsewhere places :=
  Set.sdiff_subset_sdiff_right h

/-- Where one part writes, another part does not. -/
theorem subset_elsewhere (hwithin : more ⊆ rerun.artifacts) (h : Disjoint places more) :
    more ⊆ rerun.elsewhere places := fun _ hspot =>
  ⟨.inl (hwithin hspot), fun hplaces => Set.disjoint_left.mp h hplaces hspot⟩

theorem Repeats.ready (h : rerun.Repeats places counts effect) (hrun : effect.run first = (x, mid))
    (hcounts : counts x) (hready : rerun.ready first.disk) : rerun.ready mid.disk :=
  rerun.ready_of_grows ((h.grows hrun hcounts hready).mono h.within) hready

/-- What writes at some places may be said to write at more of them. -/
theorem Repeats.widen (h : rerun.Repeats places counts effect) (hplaces : places ⊆ more)
    (hmore : more ⊆ rerun.artifacts) : rerun.Repeats more counts effect where
  within := hmore
  grows hrun hx hready := (h.grows hrun hx hready).mono hplaces
  again hrun hx hfirst hsecond hlater := by
    obtain ⟨last, hlast, hgrows, hlook⟩ :=
      h.again hrun hx hfirst hsecond (hlater.mono (elsewhere_anti hplaces))
    exact ⟨last, hlast, hgrows.mono hplaces, hlook⟩

/-- What does nothing to the disk, and gives a result that does not depend on it, repeats it. -/
theorem Repeats.of_alike (h : ∀ session, ∃ after, effect.run session = (x, after) ∧
    session.Alike after) : rerun.Repeats ∅ counts effect where
  within := Set.empty_subset _
  grows {first mid _} hrun _ _ := by
    obtain ⟨after, hrun', halike⟩ := h first
    cases hrun.symm.trans hrun'
    rw [halike.disk]
    exact .refl _ _ _
  again {first mid second _} hrun _ _ _ _ := by
    obtain ⟨after, hrun', -⟩ := h first
    cases hrun.symm.trans hrun'
    obtain ⟨last, hlast, halike⟩ := h second
    refine ⟨last, hlast, ?_, fun spot => ?_⟩ <;> rw [halike.disk]
    exact .refl _ _ _

/-- **A sequence repeats** when its parts do and write at different places. -/
theorem Repeats.bind {a b : Set Location} {counted : α → Prop} {counts : β → Prop}
    {next : α → Effect β} (h : rerun.Repeats a counted effect) (hb : b ⊆ rerun.artifacts)
    (hnext : ∀ first mid x, effect.run first = (x, mid) → rerun.Repeats b counts (next x))
    (hdisjoint : Disjoint a b)
    (hcounts : ∀ mid x y after, (next x).run mid = (y, after) → counts y → counted x) :
    rerun.Repeats (a ∪ b) counts (effect >>= next) := by
  have hparts {first after : Session} {y : β} (hrun : (effect >>= next).run first = (y, after)) :
      ∃ x mid, effect.run first = (x, mid) ∧ (next x).run mid = (y, after) := by
    rcases hfirst : effect.run first with ⟨x, mid⟩
    rw [Effect.run_bind hfirst] at hrun
    exact ⟨x, mid, rfl, hrun⟩
  refine ⟨Set.union_subset h.within hb, fun hrun hy hready => ?_, fun hrun hy hready hsecond hlater => ?_⟩
  all_goals
    obtain ⟨x, mid, hfirst, hrest⟩ := hparts hrun
    have hx := hcounts _ _ _ _ hrest hy
    have hrepeats := hnext _ _ _ hfirst
    have hmid := h.ready hfirst hx hready
    have hgrows := hrepeats.grows hrest hy hmid
  · exact ((h.grows hfirst hx hready).mono Set.subset_union_left).trans
      (hgrows.mono Set.subset_union_right)
  · obtain ⟨between, hbetween, hgrows', hlook⟩ := h.again hfirst hx hready hsecond
      ((hgrows.mono (subset_elsewhere hb hdisjoint)).trans
        (hlater.mono (elsewhere_anti Set.subset_union_left)))
    obtain ⟨last, hlast, hgrows'', hlook'⟩ := hrepeats.again hrest hy hmid
      (rerun.ready_of_grows (hgrows'.mono h.within) hsecond)
      ((hlater.mono (elsewhere_anti Set.subset_union_right)).trans
        (hgrows'.mono (subset_elsewhere h.within hdisjoint.symm)))
    exact ⟨last, (Effect.run_bind hbetween).trans hlast,
      (hgrows'.mono Set.subset_union_left).trans (hgrows''.mono Set.subset_union_right),
      fun spot => (hlook' spot).trans (hlook spot)⟩

/-- What follows and leaves the disk alone is no part of what is written. -/
theorem Repeats.bind_alike {counted : α → Prop} {counts : β → Prop} {next : α → Effect β}
    {result : α → β} (h : rerun.Repeats places counted effect)
    (hnext : ∀ x session, ∃ after, (next x).run session = (result x, after) ∧ session.Alike after)
    (hcounts : ∀ x, counts (result x) → counted x) :
    rerun.Repeats places counts (effect >>= next) := by
  rw [← Set.union_empty places]
  refine h.bind (Set.empty_subset _) (fun _ _ x _ => .of_alike (hnext x)) (Set.disjoint_empty _)
    fun mid x y after hrun hy => hcounts x ?_
  obtain ⟨after', hrun', -⟩ := hnext x mid
  cases hrun.symm.trans hrun'
  exact hy

theorem Repeats.measured (h : rerun.Repeats places counts effect) (name : String) :
    rerun.Repeats places counts (Metric.measured name effect) :=
  h.bind_alike (fun _ session => ⟨_, rfl, Metric.completed_quiet name session⟩) fun _ => id

end Repeats

/-! ## Actions -/

/-- Whether an action that writes at some places repeats what it did when it succeeded, and, if
that is asked for, when it failed. -/
def OfAction {α : Type} (rerun : Rerun) (failing : Prop) (places : Set Location)
    (action : Action α) : Prop :=
  rerun.Repeats places (fun result => failing ∨ ∃ x, result = .ok x) action.run

section Action
variable {rerun : Rerun} {α β : Type} {places a b : Set Location} {failing : Prop}
  {action : Action α} {next : α → Action β}

theorem OfAction.bind (h : rerun.OfAction failing a action)
    (hnext : ∀ x, rerun.OfAction failing b (next x)) (hb : b ⊆ rerun.artifacts)
    (hdisjoint : Disjoint a b) : rerun.OfAction failing (a ∪ b) (action >>= next) := by
  change rerun.Repeats (a ∪ b) _ (action.run >>= ExceptT.bindCont next)
  refine Repeats.bind h hb (fun _ _ result _ => ?_) hdisjoint fun mid result y after hrun hy => ?_
  · cases result with
    | ok x => exact hnext x
    | error failure =>
      exact Repeats.widen (.of_alike fun session => ⟨session, rfl, .refl session⟩)
        (Set.empty_subset b) hb
  · cases result with
    | ok x => exact .inr ⟨x, rfl⟩
    | error failure =>
      obtain rfl : .error failure = y := congrArg Prod.fst hrun
      exact .inl (hy.resolve_right fun ⟨_, hok⟩ => by cases hok)

/-- What is asked before something is written. -/
theorem OfAction.ask_bind (h : rerun.OfAction failing ∅ action)
    (hnext : ∀ x, rerun.OfAction failing b (next x)) (hb : b ⊆ rerun.artifacts) :
    rerun.OfAction failing b (action >>= next) := by
  rw [← Set.empty_union b]
  exact h.bind hnext hb (Set.empty_disjoint b)

theorem OfAction.outcome (result : Outcome α) : rerun.OfAction failing ∅ (liftM result) :=
  Repeats.of_alike fun session => ⟨session, Action.run_lift result session, .refl session⟩

/-- **A question** is answered in the same way while the answer does not change. -/
theorem OfAction.asks {question : Disk → Outcome α} (h : action.Asks question)
    (hsame : ∀ old new, rerun.ready old → rerun.ready new →
      Disk.Grows rerun.anchor (rerun.elsewhere ∅) old new → (failing ∨ ∃ x, question old = .ok x) →
      question new = question old) : rerun.OfAction failing ∅ action where
  within := Set.empty_subset _
  grows {first mid _} hrun _ _ := by
    obtain ⟨after, hrun', halike⟩ := h first
    cases hrun.symm.trans hrun'
    rw [halike.disk]
    exact .refl _ _ _
  again {first mid second _} hrun hcounts hfirst hsecond hlater := by
    obtain ⟨after, hrun', halike⟩ := h first
    cases hrun.symm.trans hrun'
    rw [halike.disk] at hlater
    obtain ⟨last, hlast, hagain⟩ := h second
    rw [hsame _ _ hfirst hsecond hlater hcounts] at hlast
    refine ⟨last, hlast, ?_, fun spot => ?_⟩ <;> rw [hagain.disk]
    exact .refl _ _ _

/-- **An artifact** is written once more as it was before. -/
theorem OfAction.write {writer : Output.Writer} {target : FilePath} (hplain : target.Plain)
    (hanchor : target.anchor = rerun.anchor) (hplace : target.parts ∈ rerun.artifacts)
    (hspares : Disk.Spares target ("." ++ target.name ++ ".") (rerun.elsewhere {target.parts}))
    (habove : failing → ∀ disk, rerun.ready disk →
      disk.sight target.parent.parent.parts = some (.directory [])) (content : String) :
    rerun.OfAction failing {target.parts} (do
      onDisk (writer.write target.text content (← get).now)) where
  within := Set.singleton_subset_iff.mpr hplace
  grows {first mid _} hrun _ _ := by
    have hgrows := writer.write_grows hplain content first.now first.disk
    rw [hanchor] at hgrows
    cases hrun
    exact hgrows
  again {first mid second result} hrun hcounts hfirst hsecond hlater := by
    have hgrows := writer.write_grows hplain content second.now second.disk
    rcases hwrite : (writer.write target.text content first.now).run first.disk with
      ⟨written, after⟩
    have hmid : (written, { first with disk := after }) = (result, mid) := by
      rw [← hrun]
      change _ = (((writer.write target.text content first.now).run first.disk).1,
        { first with disk := ((writer.write target.text content first.now).run first.disk).2 })
      rw [hwrite]
    cases hmid
    obtain ⟨again, hagain, hlook⟩ := Output.Writer.write_again hplain hwrite
      (hcounts.symm.imp id fun hfailing => habove hfailing _ hfirst) (hanchor ▸ hlater) hspares
      second.now
    rw [hagain, hanchor] at hgrows
    refine ⟨{ second with disk := again }, ?_, hgrows, hlook⟩
    change (((writer.write target.text content second.now).run second.disk).1,
      { second with disk := ((writer.write target.text content second.now).run second.disk).2 }) = _
    rw [hagain]

end Action

/-! ## Jobs -/

open Workflow

/-- Whether a job can give a result. -/
def Returns {α : Type} (job : Job α) (x : α) : Prop :=
  ∃ trace session later after, (job.run.run trace).run session = ((.ok x, later), after)

/-- What an action that asks gives as a part of a job is an answer. -/
theorem Returns.of_asks {α : Type} {action : Action α} {question : Disk → Outcome α} {x : α}
    (h : Returns (liftM action : Job α) x) (hasks : action.Asks question) :
    ∃ disk, question disk = .ok x := by
  obtain ⟨trace, session, later, after, hrun⟩ := h
  obtain ⟨mid, hasked, -⟩ := hasks session
  rw [Job.run_action hasked] at hrun
  exact ⟨session.disk, congrArg (fun ended => ended.1.1) hrun⟩

/-- Whether a job that writes at some places repeats what it did when it succeeded, and notes the
same. -/
def OfJob {α : Type} (rerun : Rerun) (places : Set Location) (job : Job α) : Prop :=
  ∀ trace, rerun.Repeats places (fun ended => ∃ x, ended.1 = .ok x) (job.run.run trace)

section Job
variable {rerun : Rerun} {α β : Type} {places a b : Set Location} {job : Job α} {next : α → Job β}

theorem OfJob.widen (h : rerun.OfJob a job) (hab : a ⊆ b) (hb : b ⊆ rerun.artifacts) :
    rerun.OfJob b job :=
  fun trace => (h trace).widen hab hb

theorem OfJob.bind (h : rerun.OfJob a job) (hnext : ∀ x, Returns job x → rerun.OfJob b (next x))
    (hb : b ⊆ rerun.artifacts) (hdisjoint : Disjoint a b) :
    rerun.OfJob (a ∪ b) (job >>= next) := by
  intro trace
  change rerun.Repeats (a ∪ b) _ (job.run.run trace >>= fun ended =>
    (ExceptT.bindCont next ended.1).run ended.2)
  refine (h trace).bind hb (fun first mid ended hrun => ?_) hdisjoint
    fun mid ended y after hrun hy => ?_
  all_goals obtain ⟨result, later⟩ := ended
  · cases result with
    | ok x => exact hnext x ⟨trace, first, later, mid, hrun⟩ later
    | error failure =>
      exact Repeats.widen (.of_alike fun session => ⟨session, rfl, .refl session⟩)
        (Set.empty_subset b) hb
  · cases result with
    | ok x => exact ⟨x, rfl⟩
    | error failure =>
      obtain ⟨x, hx⟩ := hy
      obtain rfl : (.error failure, later) = y := congrArg Prod.fst hrun
      cases hx

/-- What is asked or noted before something is written. -/
theorem OfJob.ask_bind (h : rerun.OfJob ∅ job) (hnext : ∀ x, Returns job x → rerun.OfJob b (next x))
    (hb : b ⊆ rerun.artifacts) : rerun.OfJob b (job >>= next) := by
  rw [← Set.empty_union b]
  exact h.bind hnext hb (Set.empty_disjoint b)

/-- What is asked or noted after something was written. -/
theorem OfJob.bind_ask (h : rerun.OfJob a job) (hnext : ∀ x, rerun.OfJob ∅ (next x)) :
    rerun.OfJob a (job >>= next) := by
  rw [← Set.union_empty a]
  exact h.bind (fun x _ => hnext x) (Set.empty_subset _) (Set.disjoint_empty a)

theorem OfJob.pure (x : α) : rerun.OfJob ∅ (Pure.pure x) :=
  fun _ => .of_alike fun session => ⟨session, rfl, .refl session⟩

theorem OfJob.throw (failure : Failure) : rerun.OfJob ∅ (throw failure : Job α) :=
  fun _ => .of_alike fun session => ⟨session, rfl, .refl session⟩

theorem OfJob.note (phase status message : String) (details : Members) :
    rerun.OfJob ∅ (Job.note phase status message details) :=
  fun _ => .of_alike fun session => ⟨session, rfl, .refl session⟩

theorem OfJob.settle (route : Json) : rerun.OfJob ∅ (Job.settle route) :=
  fun _ => .of_alike fun session => ⟨session, rfl, .refl session⟩

theorem OfJob.action {action : Action α} (h : rerun.OfAction False places action) :
    rerun.OfJob places (liftM action : Job α) := by
  intro trace
  change rerun.Repeats places _ (action.run >>= fun result => Pure.pure (result, trace))
  exact Repeats.bind_alike h (fun _ session => ⟨session, rfl, .refl session⟩) fun _ hok => .inr hok

/-- The failure of an action that is attempted is a result. -/
theorem OfJob.attempt {action : Action α} (h : rerun.OfAction True places action) :
    rerun.OfJob places (liftM (attempt action) : Job (Except Failure α)) := by
  intro trace
  change rerun.Repeats places _ (action.run >>= fun result =>
    Pure.pure ((Except.ok result : Except Failure (Except Failure α)), trace))
  exact Repeats.bind_alike h (fun _ session => ⟨session, rfl, .refl session⟩)
    fun _ _ => .inl trivial

theorem OfJob.quiet {effect : Effect Unit} (h : effect.Quiet) :
    rerun.OfJob ∅ (liftM effect) := by
  intro trace
  have hlift (session : Session) : ∃ after,
      ((liftM effect : Job Unit).run.run trace).run session = ((.ok (), trace), after) ∧
        session.Alike after := by
    have hquiet := h session
    rcases hrun : effect.run session with ⟨passed, after⟩
    rw [hrun] at hquiet
    exact ⟨after, Job.run_effect hrun trace, hquiet⟩
  exact .of_alike hlift

theorem OfJob.operation (h : rerun.OfJob places job) (name : String) (fields : Members)
    (hplaces : places ⊆ rerun.artifacts) :
    rerun.OfJob places (Operation.run name fields job) := by
  refine .ask_bind (.quiet (Operation.started_quiet name fields)) (fun _ _ => ?_) hplaces
  refine .bind_ask (fun trace => ?_) fun x =>
    .ask_bind (.quiet (Operation.completed_quiet name fields)) (fun _ _ => .pure x)
      (Set.empty_subset _)
  have hcaught (first mid : Session) (y : α) (later : Trace) :
      ((tryCatch job fun failure => do
        liftM (Operation.failed name fields failure)
        MonadExcept.throw failure : Job α).run.run trace).run first = ((.ok y, later), mid) ↔
      (job.run.run trace).run first = ((.ok y, later), mid) := by
    rw [Job.run_tryCatch]
    rcases (job.run.run trace).run first with ⟨⟨failure | x, between⟩, after⟩
    · exact ⟨fun hrun => (by cases hrun), fun hrun => (by cases hrun)⟩
    · exact Iff.rfl
  refine ⟨(h trace).within, fun {first mid ended} hrun hok => ?_,
    fun {first mid second ended} hrun hok hfirst hsecond hlater => ?_⟩
  all_goals
    obtain ⟨result, later⟩ := ended
    obtain ⟨y, rfl⟩ := hok
    have hrun' := (hcaught first mid y later).mp hrun
  · exact (h trace).grows hrun' ⟨y, rfl⟩
  · obtain ⟨last, hlast, hrest⟩ := (h trace).again hrun' ⟨y, rfl⟩ hfirst hsecond hlater
    exact ⟨last, (hcaught second last y later).mpr hlast, hrest⟩

end Job
end Rerun
end SpecDraft
