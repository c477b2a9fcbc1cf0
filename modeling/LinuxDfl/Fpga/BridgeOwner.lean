import LinuxDfl.Fpga.Bridge
import LinuxDfl.Lib.Transition
import Mathlib.Algebra.BigOperators.Group.Finset.Piecewise
import Mathlib.Data.Fintype.Basic

/-!
# Who has a bridge

Regions ask for one bridge and give it back, each in steps which the steps of
others come between.  The mutex of the bridge has one owner at most.  The
image information is written before the mutex is tried, so an attempt which
fails may leave its own behind.
-/

namespace LinuxDfl.Fpga.BridgeOwner

open LinuxDfl.Kernel
open LinuxDfl.Lib.Transition

/-! ## Data -/

/-- Where a region is in asking for the bridge, or in giving it back. -/
inductive Stage where
  /-- The bridge is neither held nor asked for. -/
  | out
  | found
  | written
  | locked
  /-- The request has returned the bridge. -/
  | held
  /-- At `err_ll_mod`. -/
  | errLlMod
  /-- At `err_dev`. -/
  | errDev (ret : Errno)
  /-- The request has returned an error. -/
  | failed (ret : Errno)
  | cleared
  | modulePut
  | unlocked
  deriving DecidableEq, Repr

/-- What several regions share. -/
structure Bridge (Info : Type) where
  /-- `info`, which points to the information of an image. -/
  info : Option Info
  held : Holds

/-- One region. -/
structure Caller (Info : Type) where
  stage : Stage
  /-- The parameter of its last request. -/
  info : Option Info
  /-- What was at `info` of the bridge when the request wrote it. -/
  was : Option (Option Info)
  /-- What its calls have taken and not given back. -/
  holds : Holds

/-- Nothing is taken. -/
def nothing : Holds := ⟨0, 0, 0⟩

/-- The region has not asked for the bridge. -/
def Caller.idle {Info : Type} : Caller Info := ⟨.out, none, none, nothing⟩

/-- One step of a region. -/
inductive Access (Info : Type) where
  /--
  `class_find_device` of `fpga_bridge_get`, or `class_find_device_by_of_node`
  of `of_fpga_bridge_get`
  -/
  | find (info : Option Info) (found : Bool)
  /-- The next step of a call, and what `try_module_get` would return. -/
  | advance (tryModuleGet : Bool)
  /-- The first step of `fpga_bridge_put`. -/
  | put

variable {Info : Type}

/-- References of the bridge change by what the region takes or gives back. -/
def count (change : Holds → Holds) (stage : Stage)
    (bridge : Bridge Info) (caller : Caller Info) :
    Bridge Info × Caller Info :=
  ({ bridge with held := change bridge.held },
    { caller with stage := stage, holds := change caller.holds })

/-- The next step of `__fpga_bridge_get` and `fpga_bridge_put`. -/
def Caller.advance (tryModuleGet : Bool) (bridge : Bridge Info)
    (caller : Caller Info) : Bridge Info × Caller Info :=
  match caller.stage with
  | .found =>
      ({ bridge with info := caller.info },
        { caller with stage := .written, was := some bridge.info })
  | .written =>
      -- `mutex_trylock`
      if bridge.held.mutex = 0 then count Holds.lock .locked bridge caller
      else (bridge, { caller with stage := .errDev .ebusy })
  | .locked =>
      if tryModuleGet then count Holds.getModule .held bridge caller
      else (bridge, { caller with stage := .errLlMod })
  | .errLlMod => count Holds.unlock (.errDev .enodev) bridge caller
  | .errDev ret => count Holds.putDevice (.failed ret) bridge caller
  | .cleared => count Holds.modulePut .modulePut bridge caller
  | .modulePut => count Holds.unlock .unlocked bridge caller
  | .unlocked => count Holds.putDevice .out bridge caller
  | .out | .held | .failed _ => (bridge, caller)

def Access.perform (access : Access Info) (bridge : Bridge Info)
    (caller : Caller Info) : Bridge Info × Caller Info :=
  match access with
  | .find info found =>
      let caller := { caller with info := info, was := none }
      if found then count Holds.getDevice .found bridge caller
      else (bridge, { caller with stage := .failed .enodev })
  | .advance tryModuleGet => caller.advance tryModuleGet bridge
  | .put =>
      ({ bridge with info := none }, { caller with stage := .cleared })

/-- Calls are made while no other is under way, and only a holder puts. -/
def Access.enabled : Access Info → Stage → Bool
  | .find _ _, .out => true
  | .find _ _, .failed _ => true
  | .find _ _, _ => false
  | .advance _, .out => false
  | .advance _, .held => false
  | .advance _, .failed _ => false
  | .advance _, _ => true
  | .put, .held => true
  | .put, _ => false

/-! ## The regions together -/

/-- The bridge, and all who may ask for it. -/
structure System (Region Info : Type) where
  bridge : Bridge Info
  caller : Region → Caller Info

variable {Region : Type}

def System.stage (system : System Region Info) (region : Region) : Stage :=
  (system.caller region).stage

/-- `fpga_bridge_register` has given out the bridge. -/
def registered : System Region Info := ⟨⟨none, ⟨0, 1, 0⟩⟩, fun _ => .idle⟩

/-- The state after a step of a region. -/
def System.apply [DecidableEq Region] (system : System Region Info)
    (label : Region × Access Info) : System Region Info :=
  let after := label.2.perform system.bridge (system.caller label.1)
  ⟨after.1, Function.update system.caller label.1 after.2⟩

def System.enabled (system : System Region Info)
    (label : Region × Access Info) : Bool :=
  label.2.enabled (system.stage label.1)

def System.Step [DecidableEq Region] (system : System Region Info)
    (label : Region × Access Info) (next : System Region Info) : Prop :=
  system.enabled label = true ∧ system.apply label = next

/-! ## What is to hold -/

/-- The request is to return an error, or has done so. -/
def Stage.fails : Stage → Bool
  | .errLlMod | .errDev _ | .failed _ => true
  | _ => false

/-- A call is under way. -/
def Stage.underWay (stage : Stage) : Bool :=
  (Access.advance true : Access Unit).enabled stage

/-- The last request wrote what was there, if it wrote anything. -/
def Caller.KeepsInfo (caller : Caller Info) : Prop :=
  ∀ was, caller.was = some was → was = caller.info

/-- The region has taken the mutex and not given it back. -/
def System.Owns (system : System Region Info) (region : Region) : Prop :=
  (system.caller region).holds.mutex ≠ 0

/--
The mutex is locked by one region at most, which holds the bridge or is about
to get it or to give it back.  The bridge has the information of its holder,
and a request which fails leaves it and the references as they were.
-/
structure Exclusive (system : System Region Info) : Prop where
  one_owner : ∀ region other,
    system.Owns region → system.Owns other → region = other
  locked_iff : system.bridge.held.mutex ≠ 0 ↔ ∃ region, system.Owns region
  holder_owns : ∀ region, system.stage region = .held → system.Owns region
  owner_holds : ∀ region, system.Owns region →
    system.stage region = .held ∨ (system.stage region).underWay = true
  info : ∀ region, system.stage region = .held →
    system.bridge.info = (system.caller region).info
  keepsInfo : ∀ region, (system.stage region).fails = true →
    (system.caller region).KeepsInfo
  undone : ∀ region ret, system.stage region = .failed ret →
    (system.caller region).holds = nothing

/--
A region writes the information only where it is there already while another
one holds the bridge, gets the bridge only while its own is there, and is only
refused after it wrote what was there.
-/
def InfoFits (system : System Region Info)
    (label : Region × Access Info) : Prop :=
  match label.2, system.stage label.1 with
  | .advance _, .found =>
      ∀ other, system.stage other = .held →
        system.bridge.info = (system.caller label.1).info
  | .advance _, .written =>
      system.bridge.held.mutex ≠ 0 → (system.caller label.1).KeepsInfo
  | .advance true, .locked =>
      system.bridge.info = (system.caller label.1).info
  | .advance false, .locked => (system.caller label.1).KeepsInfo
  | _, _ => True

/-! ## The mutex and the references -/

/-- What a region has at each stage. -/
def Stage.holds : Stage → Holds
  | .out | .failed _ => nothing
  | .found | .written | .errDev _ | .unlocked => ⟨0, 1, 0⟩
  | .locked | .errLlMod | .modulePut => ⟨1, 1, 0⟩
  | .held | .cleared => ⟨1, 1, 1⟩

/-- What each region has of the mutex. -/
def System.mutexes (system : System Region Info) : Region → Int :=
  (fun caller => caller.holds.mutex) ∘ system.caller

/-- A mutex which is locked has one owner, and otherwise it has none. -/
def Sole (mutex : Int) (owned : Region → Int) : Prop :=
  (mutex = 0 ∧ ∀ region, owned region = 0) ∨
    (mutex = 1 ∧ ∃ owner, owned owner ≠ 0 ∧
      ∀ region, owned region ≠ 0 → region = owner)

/-- What always holds. -/
structure Counted (system : System Region Info) : Prop where
  holds : ∀ region, (system.caller region).holds = (system.stage region).holds
  sole : Sole system.bridge.held.mutex system.mutexes

/-- What one step does to the mutex and to what its region has of it. -/
inductive MutexStep (mutex owned : Int) : Int → Int → Prop where
  | keeps : MutexStep mutex owned mutex owned
  | locks (free : mutex = 0) : MutexStep mutex owned 1 1
  | unlocks (owner : owned ≠ 0) : MutexStep mutex owned (mutex - 1) 0

theorem perform_mutex {access : Access Info} {bridge : Bridge Info}
    {caller : Caller Info} (counted : caller.holds = caller.stage.holds)
    (enabled : access.enabled caller.stage = true) :
    MutexStep bridge.held.mutex caller.holds.mutex
      (access.perform bridge caller).1.held.mutex
      (access.perform bridge caller).2.holds.mutex := by
  obtain ⟨stage, asked, was, holds⟩ := caller
  dsimp only at counted enabled
  subst counted
  cases access with
  | find info found => cases found <;> exact .keeps
  | put => exact .keeps
  | advance tryModuleGet =>
      cases stage with
      | out | held | failed => cases enabled
      | found | errDev | cleared | unlocked => exact .keeps
      | errLlMod | modulePut => exact .unlocks one_ne_zero
      | locked => cases tryModuleGet <;> exact .keeps
      | written =>
          by_cases free : bridge.held.mutex = 0
          · rw [Access.perform, Caller.advance, if_pos free]
            have taken : bridge.held.lock.mutex = 1 := by
              rw [Holds.lock, free]
              rfl
            exact taken ▸ .locks free
          · rw [Access.perform, Caller.advance, if_neg free]
            exact .keeps

theorem perform_counted {access : Access Info} {bridge : Bridge Info}
    {caller : Caller Info} (counted : caller.holds = caller.stage.holds)
    (enabled : access.enabled caller.stage = true) :
    (access.perform bridge caller).2.holds =
      (access.perform bridge caller).2.stage.holds := by
  obtain ⟨stage, asked, was, holds⟩ := caller
  dsimp only at counted enabled
  subst counted
  cases access with
  | find info found =>
      cases stage with
      | out | failed => cases found <;> rfl
      | _ => cases enabled
  | put =>
      cases stage with
      | held => rfl
      | _ => cases enabled
  | advance tryModuleGet =>
      cases stage with
      | out | held | failed => cases enabled
      | found | errLlMod | errDev | cleared | modulePut | unlocked => rfl
      | locked => cases tryModuleGet <;> rfl
      | written =>
          by_cases free : bridge.held.mutex = 0
          · rw [Access.perform, Caller.advance, if_pos free]
            rfl
          · rw [Access.perform, Caller.advance, if_neg free]
            rfl

theorem counted_registered : Counted (registered : System Region Info) :=
  ⟨fun _ => rfl, Or.inl ⟨rfl, fun _ => rfl⟩⟩

section Steps

variable [DecidableEq Region] {system next : System Region Info}
  {label : Region × Access Info}

theorem Sole.step {mutex after changed : Int} {owned : Region → Int}
    {region : Region} (sole : Sole mutex owned)
    (changes : MutexStep mutex (owned region) after changed) :
    Sole after (Function.update owned region changed) := by
  cases changes with
  | keeps =>
      rw [Function.update_eq_self]
      exact sole
  | locks free =>
      rcases sole with ⟨-, none⟩ | ⟨locked, -⟩
      · refine Or.inr ⟨rfl, region, ?_, fun other owns => ?_⟩
        · rw [Function.update_self]
          exact one_ne_zero
        · by_contra apart
          rw [Function.update_of_ne apart] at owns
          exact owns (none other)
      · rw [free] at locked
        cases locked
  | unlocks owner =>
      rcases sole with ⟨-, none⟩ | ⟨locked, last, -, only⟩
      · exact absurd (none region) owner
      · refine Or.inl ⟨by rw [locked]; rfl, fun other => ?_⟩
        by_cases same : other = region
        · rw [same, Function.update_self]
        · rw [Function.update_of_ne same]
          by_contra owns
          exact same ((only other owns).trans (only region owner).symm)

theorem Counted.step (counted : Counted system)
    (step : system.Step label next) : Counted next := by
  obtain ⟨region, access⟩ := label
  obtain ⟨enabled, rfl⟩ := step
  have ledger := counted.holds region
  constructor
  · refine (Function.forall_update_iff system.caller
      fun _ caller => caller.holds = caller.stage.holds).mpr ⟨?_, ?_⟩
    · exact perform_counted ledger enabled
    · exact fun other _ => counted.holds other
  · have mutexes := Function.comp_update
      (fun caller : Caller Info => caller.holds.mutex) system.caller region
      (access.perform system.bridge (system.caller region)).2
    rw [System.mutexes]
    dsimp only [System.apply]
    rw [mutexes]
    exact counted.sole.step (perform_mutex ledger enabled)

end Steps

/-! ## The information -/

/-- What is asked of a region when this is the information of the bridge. -/
structure Caller.Content (info : Option Info) (caller : Caller Info) : Prop where
  info : caller.stage = .held → info = caller.info
  keepsInfo : caller.stage.fails = true → caller.KeepsInfo

/-- Nothing is asked of a region while its call goes on. -/
theorem content_of_goesOn {info : Option Info} {caller : Caller Info}
    (holds : caller.stage ≠ .held) (fails : caller.stage.fails = false) :
    caller.Content info := by
  constructor
  · intro held
    exact absurd held holds
  · intro failing
    rw [fails] at failing
    cases failing

/-- A region which holds the bridge wants its own information there. -/
theorem content_held {info : Option Info} {caller : Caller Info}
    (held : caller.stage = .held) :
    caller.Content info ↔ info = caller.info := by
  constructor
  · intro content
    exact content.info held
  · intro own
    refine ⟨fun _ => own, fun failing => ?_⟩
    rw [held] at failing
    cases failing

theorem content_fails {info : Option Info} {caller : Caller Info}
    (fails : caller.stage.fails = true) :
    caller.Content info ↔ caller.KeepsInfo := by
  constructor
  · intro content
    exact content.keepsInfo fails
  · intro keeps
    refine ⟨fun held => ?_, fun _ => keeps⟩
    rw [held] at fails
    cases fails

/-- Owners are where the mutex is taken. -/
theorem Stage.owner_holds {stage : Stage} (owns : stage.holds.mutex ≠ 0) :
    stage = .held ∨ stage.underWay = true := by
  cases stage with
  | out | failed | found | written | errDev | unlocked => exact absurd rfl owns
  | held => exact Or.inl rfl
  | locked | errLlMod | modulePut | cleared => exact Or.inr rfl

theorem Counted.exclusive_iff {system : System Region Info}
    (counted : Counted system) :
    Exclusive system ↔
      ∀ region, (system.caller region).Content system.bridge.info := by
  constructor
  · intro exclusive region
    exact ⟨exclusive.info region, exclusive.keepsInfo region⟩
  intro content
  have ledger : ∀ region, system.Owns region →
      (system.stage region).holds.mutex ≠ 0 := by
    intro region owns
    rw [← counted.holds region]
    exact owns
  exact
    { one_owner := by
        intro region other owns alsoOwns
        rcases counted.sole with ⟨-, none⟩ | ⟨-, owner, -, only⟩
        · exact absurd (none region) owns
        · exact (only region owns).trans (only other alsoOwns).symm
      locked_iff := by
        rcases counted.sole with ⟨free, none⟩ | ⟨locked, owner, owns, -⟩
        · refine iff_of_false (fun locked => locked free) ?_
          rintro ⟨region, owns⟩
          exact owns (none region)
        · refine iff_of_true ?_ ⟨owner, owns⟩
          rw [locked]
          exact one_ne_zero
      holder_owns := by
        intro region holds
        rw [System.Owns, counted.holds region, holds]
        exact one_ne_zero
      owner_holds := fun region owns => Stage.owner_holds (ledger region owns)
      info := fun region => (content region).info
      keepsInfo := fun region => (content region).keepsInfo
      undone := by
        intro region ret failed
        rw [counted.holds region, failed]
        rfl }

/-- Regions which take no step are as content as before. -/
theorem content_step_iff [DecidableEq Region] {system : System Region Info}
    {region : Region} {access : Access Info}
    (content : ∀ region, (system.caller region).Content system.bridge.info) :
    (∀ other, ((system.apply (region, access)).caller other).Content
        (system.apply (region, access)).bridge.info) ↔
      (access.perform system.bridge (system.caller region)).2.Content
        (access.perform system.bridge (system.caller region)).1.info ∧
      ∀ other ≠ region, system.stage other = .held →
        (access.perform system.bridge (system.caller region)).1.info =
          system.bridge.info := by
  refine (Function.forall_update_iff system.caller fun _ caller =>
    caller.Content (access.perform system.bridge
      (system.caller region)).1.info).trans ?_
  refine and_congr_right fun _ => forall₂_congr fun other apart => ?_
  constructor
  · intro still holds
    rw [still.info holds, (content other).info holds]
  · intro same
    refine ⟨fun holds => ?_, (content other).keepsInfo⟩
    rw [same holds, (content other).info holds]

/-- A step which leaves the information alone is a matter of its region. -/
theorem content_of_sameInfo [DecidableEq Region] {system : System Region Info}
    {region : Region} {access : Access Info}
    (content : ∀ region, (system.caller region).Content system.bridge.info)
    (same : (access.perform system.bridge (system.caller region)).1.info =
      system.bridge.info) :
    (∀ other, ((system.apply (region, access)).caller other).Content
        (system.apply (region, access)).bridge.info) ↔
      (access.perform system.bridge (system.caller region)).2.Content
        system.bridge.info := by
  rw [content_step_iff content, same]
  exact and_iff_left fun _ _ _ => rfl

/-- So is one which takes a reference or gives it back. -/
theorem content_of_count [DecidableEq Region] {system : System Region Info}
    {region : Region} {access : Access Info} {change : Holds → Holds}
    {stage : Stage}
    (content : ∀ region, (system.caller region).Content system.bridge.info)
    (performs : access.perform system.bridge (system.caller region) =
      count change stage system.bridge (system.caller region)) :
    (∀ other, ((system.apply (region, access)).caller other).Content
        (system.apply (region, access)).bridge.info) ↔
      (count change stage system.bridge (system.caller region)).2.Content
        system.bridge.info := by
  rw [content_of_sameInfo content (by rw [performs]; rfl), performs]

/-- Where a region gives something back, what this is, and what comes next. -/
inductive Stage.GivesBack : Stage → (Holds → Holds) → Stage → Prop where
  | errLlMod : GivesBack .errLlMod Holds.unlock (.errDev .enodev)
  | errDev (ret : Errno) :
      GivesBack (.errDev ret) Holds.putDevice (.failed ret)
  | cleared : GivesBack .cleared Holds.modulePut .modulePut
  | modulePut : GivesBack .modulePut Holds.unlock .unlocked
  | unlocked : GivesBack .unlocked Holds.putDevice .out

theorem Stage.GivesBack.perform_eq {change : Holds → Holds} {next : Stage}
    {caller : Caller Info} (gives : caller.stage.GivesBack change next)
    (tryModuleGet : Bool) (bridge : Bridge Info) :
    (Access.advance tryModuleGet).perform bridge caller =
      count change next bridge caller := by
  obtain ⟨stage, asked, was, holds⟩ := caller
  cases gives <;> rfl

/-- What fails goes on failing, and what does not gives the bridge up. -/
theorem Stage.GivesBack.fails_eq {stage next : Stage} {change : Holds → Holds}
    (gives : stage.GivesBack change next) : next.fails = stage.fails := by
  cases gives <;> rfl

theorem Stage.GivesBack.ne_held {stage next : Stage} {change : Holds → Holds}
    (gives : stage.GivesBack change next) : next ≠ .held := by
  cases gives <;> nofun

/-- To give something back keeps all regions content. -/
theorem content_of_givesBack [DecidableEq Region]
    {system : System Region Info} {region : Region} {change : Holds → Holds}
    {stage next : Stage} (tryModuleGet : Bool)
    (content : ∀ region, (system.caller region).Content system.bridge.info)
    (now : (system.caller region).stage = stage)
    (gives : stage.GivesBack change next) :
    ∀ other,
      ((system.apply (region, .advance tryModuleGet)).caller other).Content
        (system.apply (region, .advance tryModuleGet)).bridge.info := by
  subst now
  refine (content_of_count content (gives.perform_eq _ _)).mpr ?_
  constructor
  · intro holds
    exact absurd holds gives.ne_held
  · intro fails
    exact (content region).keepsInfo (gives.fails_eq ▸ fails)

/-- So does a request for the bridge. -/
theorem content_of_find [DecidableEq Region] {system : System Region Info}
    (region : Region) (info : Option Info) (found : Bool)
    (content : ∀ region, (system.caller region).Content system.bridge.info) :
    ∀ other, ((system.apply (region, .find info found)).caller other).Content
      (system.apply (region, .find info found)).bridge.info := by
  cases found with
  | true =>
      refine (content_of_sameInfo content rfl).mpr ?_
      exact content_of_goesOn nofun rfl
  | false =>
      refine (content_of_sameInfo content rfl).mpr ?_
      exact (content_fails rfl).mpr nofun

/-- Only its holder takes the information off the bridge. -/
theorem content_of_put [DecidableEq Region] {system : System Region Info}
    {region : Region} (counted : Counted system)
    (content : ∀ region, (system.caller region).Content system.bridge.info)
    (holds : system.stage region = .held) :
    ∀ other, ((system.apply (region, .put)).caller other).Content
      (system.apply (region, .put)).bridge.info := by
  have exclusive := counted.exclusive_iff.mpr content
  refine (content_step_iff content).mpr ⟨?_, ?_⟩
  · exact content_of_goesOn nofun rfl
  · intro other apart alsoHolds
    exact absurd (exclusive.one_owner other region
      (exclusive.holder_owns other alsoHolds)
      (exclusive.holder_owns region holds)) apart

/-- A step keeps all regions content if and only if it fits. -/
theorem content_iff_infoFits [DecidableEq Region]
    {system next : System Region Info} {label : Region × Access Info}
    (counted : Counted system)
    (content : ∀ region, (system.caller region).Content system.bridge.info)
    (step : system.Step label next) :
    (∀ region, (next.caller region).Content next.bridge.info) ↔
      InfoFits system label := by
  obtain ⟨region, access⟩ := label
  obtain ⟨enabled, rfl⟩ := step
  change access.enabled (system.caller region).stage = true at enabled
  unfold InfoFits System.stage
  cases access with
  | find info found =>
      exact iff_of_true (content_of_find region info found content) trivial
  | put =>
      cases stage : (system.caller region).stage with
      | held => exact iff_of_true (content_of_put counted content stage) trivial
      | _ =>
          rw [stage] at enabled
          cases enabled
  | advance tryModuleGet =>
      cases stage : (system.caller region).stage with
      | out | held | failed =>
          rw [stage] at enabled
          cases enabled
      | found =>
          have performs : (Access.advance tryModuleGet).perform system.bridge
              (system.caller region) =
                ({ system.bridge with info := (system.caller region).info },
                  { system.caller region with
                    stage := .written, was := some system.bridge.info }) := by
            simp only [Access.perform, Caller.advance, stage]
          rw [content_step_iff content, performs]
          constructor
          · rintro ⟨-, others⟩ other holds
            refine (others other (fun same => ?_) holds).symm
            rw [same, stage] at holds
            cases holds
          · intro same
            refine ⟨content_of_goesOn nofun rfl, fun other _ holds => ?_⟩
            exact (same other holds).symm
      | written =>
          by_cases free : system.bridge.held.mutex = 0
          · have performs : (Access.advance tryModuleGet).perform system.bridge
                (system.caller region) =
                  count Holds.lock .locked system.bridge
                    (system.caller region) := by
              simp only [Access.perform, Caller.advance, stage, if_pos free]
            refine iff_of_true ((content_of_count content performs).mpr ?_)
              fun locked => absurd free locked
            exact content_of_goesOn nofun rfl
          · have performs : (Access.advance tryModuleGet).perform system.bridge
                (system.caller region) =
                  (system.bridge,
                    { system.caller region with stage := .errDev .ebusy }) := by
              simp only [Access.perform, Caller.advance, stage, if_neg free]
            rw [content_of_sameInfo content (by rw [performs]), performs,
              content_fails rfl]
            constructor
            · intro keeps _
              exact keeps
            · intro keeps
              exact keeps free
      | locked =>
          cases tryModuleGet with
          | true =>
              have performs : (Access.advance true).perform system.bridge
                  (system.caller region) =
                    count Holds.getModule .held system.bridge
                      (system.caller region) := by
                simp only [Access.perform, Caller.advance, stage, if_true]
              rw [content_of_count content performs]
              exact content_held rfl
          | false =>
              have performs : (Access.advance false).perform system.bridge
                  (system.caller region) =
                    (system.bridge,
                      { system.caller region with stage := .errLlMod }) := by
                simp only [Access.perform, Caller.advance, stage,
                  Bool.false_eq_true, if_false]
              rw [content_of_sameInfo content (by rw [performs]), performs]
              exact content_fails rfl
      | errLlMod =>
          exact iff_of_true (content_of_givesBack _ content stage .errLlMod)
            trivial
      | errDev ret =>
          exact iff_of_true (content_of_givesBack _ content stage (.errDev ret))
            trivial
      | cleared =>
          exact iff_of_true (content_of_givesBack _ content stage .cleared)
            trivial
      | modulePut =>
          exact iff_of_true (content_of_givesBack _ content stage .modulePut)
            trivial
      | unlocked =>
          exact iff_of_true (content_of_givesBack _ content stage .unlocked)
            trivial

/-! ## Runs -/

theorem exclusive_registered : Exclusive (registered : System Region Info) :=
  counted_registered.exclusive_iff.mpr fun _ => content_of_goesOn nofun rfl

section Runs

variable [DecidableEq Region]

/--
Along a run the bridge is held exclusively, with the information of its
holder, and requests which fail leave it as it was, if and only if the steps
of the run fit.
-/
theorem exclusive_iff_infoFits
    {path : List ((Region × Access Info) × System Region Info)}
    (isPath : IsPath System.Step registered path) :
    Throughout Exclusive registered path ↔
      StepsMeet InfoFits registered path := by
  refine throughout_iff_stepsMeet Counted
    (fun _ _ _ counted step => counted.step step) ?_ isPath
    counted_registered exclusive_registered
  intro source label target counted exclusive step
  rw [(counted.step step).exclusive_iff]
  exact content_iff_infoFits counted (counted.exclusive_iff.mp exclusive) step

end Runs

/-! ## References -/

/-- Two objects have changed by the same references. -/
structure SameChange (before after other changed : Holds) : Prop where
  mutex : after.mutex - before.mutex = changed.mutex - other.mutex
  device : after.device - before.device = changed.device - other.device
  moduleRef :
    after.moduleRef - before.moduleRef = changed.moduleRef - other.moduleRef

theorem sameChange_refl (bridge caller : Holds) :
    SameChange bridge bridge caller caller := by
  constructor <;> omega

/-- The references of the bridge change by those of the region. -/
theorem perform_sameChange (access : Access Info) (bridge : Bridge Info)
    (caller : Caller Info) :
    SameChange bridge.held (access.perform bridge caller).1.held
      caller.holds (access.perform bridge caller).2.holds := by
  obtain ⟨stage, asked, was, holds⟩ := caller
  have locks : SameChange bridge.held bridge.held.lock holds holds.lock := by
    constructor <;> dsimp only [Holds.lock] <;> omega
  have unlocks :
      SameChange bridge.held bridge.held.unlock holds holds.unlock := by
    constructor <;> dsimp only [Holds.unlock] <;> omega
  have gets :
      SameChange bridge.held bridge.held.getDevice holds holds.getDevice := by
    constructor <;> dsimp only [Holds.getDevice] <;> omega
  have puts :
      SameChange bridge.held bridge.held.putDevice holds holds.putDevice := by
    constructor <;> dsimp only [Holds.putDevice] <;> omega
  have getsModule :
      SameChange bridge.held bridge.held.getModule holds holds.getModule := by
    constructor <;> dsimp only [Holds.getModule] <;> omega
  have putsModule :
      SameChange bridge.held bridge.held.modulePut holds holds.modulePut := by
    constructor <;> dsimp only [Holds.modulePut] <;> omega
  have same := sameChange_refl bridge.held holds
  cases access with
  | find info found =>
      cases found with
      | true => exact gets
      | false => exact same
  | put => exact same
  | advance tryModuleGet =>
      cases stage with
      | out | held | failed | found => exact same
      | errLlMod | modulePut => exact unlocks
      | errDev | unlocked => exact puts
      | cleared => exact putsModule
      | locked =>
          cases tryModuleGet with
          | true => exact getsModule
          | false => exact same
      | written =>
          by_cases free : bridge.held.mutex = 0
          · rw [Access.perform, Caller.advance, if_pos free]
            exact locks
          · rw [Access.perform, Caller.advance, if_neg free]
            exact same

section Accounts

variable [Fintype Region]

/-- What the regions have together. -/
def System.total (system : System Region Info) (part : Holds → Int) : Int :=
  ∑ region, part (system.caller region).holds

/-- The bridge has the references of the regions, and one of its own. -/
structure Accounted (system : System Region Info) : Prop where
  mutex : system.bridge.held.mutex = system.total Holds.mutex
  device : system.bridge.held.device = 1 + system.total Holds.device
  moduleRef : system.bridge.held.moduleRef = system.total Holds.moduleRef

theorem total_apply [DecidableEq Region] (system : System Region Info)
    (region : Region) (access : Access Info) (part : Holds → Int) :
    (system.apply (region, access)).total part - system.total part =
      part (access.perform system.bridge (system.caller region)).2.holds -
        part (system.caller region).holds := by
  have member := Finset.mem_univ region
  have parts := Function.comp_update
    (fun caller : Caller Info => part caller.holds) system.caller region
    (access.perform system.bridge (system.caller region)).2
  have after := Finset.sum_update_of_mem member
    ((fun caller : Caller Info => part caller.holds) ∘ system.caller)
    (part (access.perform system.bridge (system.caller region)).2.holds)
  rw [← parts] at after
  have before := Finset.sum_eq_add_sum_sdiff_singleton_of_mem member
    ((fun caller : Caller Info => part caller.holds) ∘ system.caller)
  change (system.apply (region, access)).total part = _ at after
  change system.total part = _ at before
  rw [after, before, Function.comp_apply]
  exact add_sub_add_right_eq_sub _ _ _

/-- References are accounted for in every state of a run. -/
theorem references_accounted [DecidableEq Region]
    {path : List ((Region × Access Info) × System Region Info)}
    (isPath : IsPath System.Step registered path) :
    Throughout Accounted registered path := by
  refine throughout_of_invariant ?_ isPath ?_
  · rintro source ⟨region, access⟩ target accounted ⟨-, rfl⟩
    have change :=
      perform_sameChange access source.bridge (source.caller region)
    have totals := total_apply source region access
    constructor
    · have total := totals Holds.mutex
      rw [← change.mutex, accounted.mutex] at total
      exact (sub_left_injective total).symm
    · have total := totals Holds.device
      rw [← change.device, accounted.device] at total
      change (access.perform source.bridge (source.caller region)).1.held.device
        = _
      omega
    · have total := totals Holds.moduleRef
      rw [← change.moduleRef, accounted.moduleRef] at total
      exact (sub_left_injective total).symm
  · have none : ∀ part, part nothing = 0 →
        (registered : System Region Info).total part = 0 :=
      fun part zero => Finset.sum_eq_zero fun _ _ => zero
    exact ⟨(none _ rfl).symm, by rw [none _ rfl]; rfl, (none _ rfl).symm⟩

end Accounts

/-! ## Calls which nothing comes between -/

/-- The bridge of requests which are one step. -/
def Bridge.whole (bridge : Bridge FpgaImageInfo) : FpgaBridge :=
  ⟨bridge.info, bridge.held⟩

/-- The steps of one region on its own. -/
def performAll (accesses : List (Access Info))
    (state : Bridge Info × Caller Info) : Bridge Info × Caller Info :=
  accesses.foldl (fun state access => access.perform state.1 state.2) state

/-- A request which nothing comes between is the request of one step. -/
theorem get_alone {env : BridgeGetEnv} {bridge : Bridge FpgaImageInfo}
    (trylock : env.trylock = decide (bridge.held.mutex = 0))
    (info : Option FpgaImageInfo) (caller : Caller FpgaImageInfo) :
    let steps := .find info env.find ::
      List.replicate 5 (.advance env.tryModuleGet)
    let after := performAll steps (bridge, caller)
    let result := fpgaBridgeGet env info bridge.whole
    after.1.whole = result.2 ∧
      after.2.stage = result.1.elim .held Stage.failed := by
  obtain ⟨find, locks, tryModuleGet⟩ := env
  dsimp only at trylock
  subst trylock
  cases find with
  | false => exact ⟨rfl, rfl⟩
  | true =>
      by_cases free : bridge.held.mutex = 0
      · cases tryModuleGet <;>
          simp [performAll, Access.perform, Caller.advance, count, Bridge.whole,
            fpgaBridgeGet, fpgaBridgeGetLocked, Holds.getDevice, free]
      · simp [performAll, Access.perform, Caller.advance, count, Bridge.whole,
          fpgaBridgeGet, fpgaBridgeGetLocked, Holds.getDevice, free]

theorem put_alone (bridge : Bridge FpgaImageInfo)
    (caller : Caller FpgaImageInfo) :
    let after := performAll (.put :: List.replicate 3 (.advance true))
      (bridge, caller)
    after.1.whole = fpgaBridgePut bridge.whole ∧ after.2.stage = .out :=
  ⟨rfl, rfl⟩

/-! ## Two regions -/

/-- One of two regions asks for the bridge with some information. -/
def getSteps (region : Bool) (info : Nat) (steps : Nat) :
    List (Bool × Access Nat) :=
  (region, .find (some info) true) ::
    List.replicate steps (region, .advance true)

def runOf (labels : List (Bool × Access Nat)) :
    List ((Bool × Access Nat) × System Bool Nat) :=
  pathOf System.apply registered labels

theorem isPath_runOf {labels : List (Bool × Access Nat)}
    (along : enabledAlong System.apply System.enabled registered labels =
      true) :
    IsPath System.Step registered (runOf labels) :=
  isPath_of_enabledAlong (fun _ _ enabled => ⟨enabled, rfl⟩) along

/-- A region alone gets the bridge and gives it back. -/
def oneHolder : List (Bool × Access Nat) :=
  getSteps true 1 3 ++ (true, .put) :: List.replicate 3 (true, .advance true)

theorem held_by_one :
    IsPath System.Step registered (runOf oneHolder) ∧
      Throughout Exclusive registered (runOf oneHolder) := by
  have isPath : IsPath System.Step registered (runOf oneHolder) :=
    isPath_runOf (by decide)
  refine ⟨isPath, (exclusive_iff_infoFits isPath).mpr ?_⟩
  refine ⟨trivial, ?_, ?_, rfl, trivial, trivial, trivial, trivial, trivial⟩
  · intro other holds
    cases other <;> cases holds
  · exact fun locked => absurd rfl locked

/-- A region asks for the bridge which another one has, and fails. -/
def oneRefused : List (Bool × Access Nat) :=
  getSteps true 1 3 ++ getSteps false 2 3

/-- The bridge is left with the information of the region which failed. -/
theorem refused_info_stays :
    IsPath System.Step registered (runOf oneRefused) ∧
      ¬ Throughout Exclusive registered (runOf oneRefused) := by
  refine ⟨isPath_runOf (by decide), fun throughout => ?_⟩
  have exclusive := Throughout.final throughout
  cases exclusive.info true rfl

end LinuxDfl.Fpga.BridgeOwner
