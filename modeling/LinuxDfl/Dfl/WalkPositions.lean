import LinuxDfl.Dfl.Walk
import LinuxDfl.Lib.Iteration

/-!
# The positions of the walk over a list

The walk keeps a position in the list, while the features which it parses may
replace the window to which the position is relative.  The rounds of its loop
as a partial iteration, on positions and states.
-/

namespace LinuxDfl.Dfl

open LinuxDfl.Kernel
open LinuxDfl.Lib.Iteration
open LinuxDfl.Lib.Traced
open LinuxDfl.Lib.Traced.Program

variable {platform : Platform} {limit : Nat}

/-! ## Windows -/

/-- A position of the walk, in a window which ends where the list does. -/
structure WindowAt (limit position : Nat) (binfo : BuildFeatureDevsInfo) :
    Prop where
  start_le : binfo.start ≤ position
  ends : binfo.start + binfo.len = limit
  mapped : binfo.ioaddr = binfo.start

theorem WindowAt.of_le {position later : Nat} {binfo : BuildFeatureDevsInfo}
    (window : WindowAt limit position binfo) (le : position ≤ later) :
    WindowAt limit later binfo :=
  ⟨window.start_le.trans le, window.ends, window.mapped⟩

/-- A window which is switched to begins at the position it is switched at. -/
theorem WindowAt.switched {position earlier : Nat} {binfo : BuildFeatureDevsInfo}
    (window : WindowAt limit position binfo) (noWrap : limit < 2 ^ 64)
    (inside : position < limit) (le : earlier ≤ position) :
    WindowAt limit position
      (binfo.switched (Word.sub 64 earlier binfo.start)) := by
  have start_le := window.start_le
  have ends := window.ends
  have first : Word.add 64 binfo.start (Word.sub 64 earlier binfo.start) =
      earlier := by
    unfold Word.add Word.sub
    split <;> split <;> omega
  have last : Word.sub 64 binfo.len (Word.sub 64 earlier binfo.start) =
      limit - earlier := by
    unfold Word.sub
    split <;> split <;> omega
  refine ⟨?_, ?_, rfl⟩
  · show Word.add 64 _ _ ≤ position
    rwa [first]
  · show Word.add 64 _ _ + Word.sub 64 _ _ = limit
    rw [first, last]
    omega

/-- Whatever is parsed at a position leaves a window around it. -/
theorem windowAt_walk (platform : Platform) {position : Nat}
    (noWrap : limit < 2 ^ 64) (inside : position < limit) :
    PlainWalk platform (position + 1)
      (fun _ state => WindowAt limit position state.binfo) fun _ => True where
  event _ _ _ _ window := window
  state _ _ _ binfo window := binfo ▸ window
  accepts _ _ _ _ _ window _ := ⟨window.start_le, window.ends, window.mapped⟩
  commits _ _ _ window _ binfo := by
    rw [binfo]
    exact ⟨window.start_le, window.ends, window.mapped⟩
  switches earlier below _ _ _ window _ binfo := by
    rw [binfo]
    exact window.switched noWrap inside (Nat.le_of_lt_succ below)
  begins _ _ _ window := ⟨window.start_le, window.ends, window.mapped⟩
  privates _ _ window := ⟨window.start_le, window.ends, window.mapped⟩
  safe _ _ _ := trivial

theorem parseFeature_windowAt {position : Nat} {state : Enumeration}
    (noWrap : limit < 2 ^ 64) (inside : position < limit)
    (window : WindowAt limit position state.binfo)
    (returns : (parseFeature platform
      (Word.sub 64 position state.binfo.start) state).result = .ok ()) :
    WindowAt limit position
      (parseFeature platform (Word.sub 64 position state.binfo.start)
        state).state.binfo := by
  have runs := (windowAt_walk platform noWrap inside).parseFeature
    (Nat.lt_succ_self position) state [] state ⟨window, rfl⟩
  rw [returns] at runs
  exact runs

/-! ## Rounds of the loop -/

/-- The address from which the header at a position is read. -/
def headerAddress (state : Enumeration) (position : Nat) : Int :=
  state.binfo.ioaddr + Word.sub 64 position state.binfo.start + dfh

/-- `parse_feature`, as it is called at a position. -/
def parseAt (platform : Platform) (here : Nat × Enumeration) :
    Run Event Failure Enumeration Unit :=
  parseFeature platform (Word.sub 64 here.1 here.2.binfo.start) here.2

/-- Where the loop goes on after a round, if it does. -/
def nextRound (platform : Platform) (limit : Nat)
    (here : Nat × Enumeration) : Option (Nat × Enumeration) :=
  if here.1 < limit ∧ ¬ limit - here.1 < dfhSize then
    match (parseAt platform here).result with
    | .error _ => none
    | .ok _ =>
        let state := (parseAt platform here).state
        let value := platform.reg (headerAddress state here.1)
        if dfhEol.get value ≠ 0 ∨ dfhNextHdrOfst.get value = 0 then none
        else some (Word.add 64 here.1 (dfhNextHdrOfst.get value), state)
  else none

/-- The run of a round which no other follows. -/
def lastRound (platform : Platform) (limit : Nat)
    (here : Nat × Enumeration) : Run Event Failure Enumeration Unit :=
  if here.1 < limit then
    if limit - here.1 < dfhSize then
      ⟨[], .error (.errno .einval), here.2⟩
    else
      match (parseAt platform here).result with
      | .error _ => parseAt platform here
      | .ok _ =>
          let state := (parseAt platform here).state
          ⟨(parseAt platform here).events ++
            [.read (headerAddress state here.1)], .ok (), state⟩
  else ⟨[], .ok (), here.2⟩

/-- What a round which is followed by another has met. -/
structure GoesOn (platform : Platform) (limit : Nat)
    (here next : Nat × Enumeration) : Prop where
  inside : here.1 < limit
  room : dfhSize ≤ limit - here.1
  returns : (parseAt platform here).result = .ok ()
  state : next.2 = (parseAt platform here).state
  more : ¬ (dfhEol.get (platform.reg (headerAddress next.2 here.1)) ≠ 0 ∨
    dfhNextHdrOfst.get (platform.reg (headerAddress next.2 here.1)) = 0)
  position : next.1 = Word.add 64 here.1
    (dfhNextHdrOfst.get (platform.reg (headerAddress next.2 here.1)))

theorem nextRound_eq_some {here next : Nat × Enumeration}
    (follows : nextRound platform limit here = some next) :
    GoesOn platform limit here next := by
  unfold nextRound at follows
  split at follows
  case isFalse => cases follows
  case isTrue inside =>
    cases returns : (parseAt platform here).result with
    | error failure =>
        rw [returns] at follows
        cases follows
    | ok value =>
        rw [returns] at follows
        simp only at follows
        split at follows
        case isTrue => cases follows
        case isFalse more =>
          cases follows
          exact ⟨inside.1, Nat.le_of_not_lt inside.2, returns, rfl, more, rfl⟩

/-- What a round does behind the feature. -/
def findNext (platform : Platform) (limit fuel position : Nat) : Build Unit := do
  let state ← read
  let value ← readq platform (headerAddress state position)
  if dfhEol.get value ≠ 0 ∨ dfhNextHdrOfst.get value = 0 then
    pure ()
  else
    parseFeatureListLoop platform limit fuel
      (Word.add 64 position (dfhNextHdrOfst.get value))

theorem parseFeatureListLoop_inside {position : Nat} (inside : position < limit)
    (room : dfhSize ≤ limit - position) (fuel : Nat) (state : Enumeration) :
    parseFeatureListLoop platform limit (fuel + 1) position state =
      (parseFeature platform (Word.sub 64 position state.binfo.start) >>=
        fun _ => findNext platform limit fuel position) state := by
  unfold parseFeatureListLoop
  rw [if_pos inside, if_neg (Nat.not_lt.mpr room)]
  rfl

theorem findNext_run (fuel position : Nat) (state : Enumeration) :
    let value := platform.reg (headerAddress state position)
    let rest : Build Unit :=
      if dfhEol.get value ≠ 0 ∨ dfhNextHdrOfst.get value = 0 then pure ()
      else
        parseFeatureListLoop platform limit fuel
          (Word.add 64 position (dfhNextHdrOfst.get value))
    findNext platform limit fuel position state =
      ⟨.read (headerAddress state position) :: (rest state).events,
        (rest state).result, (rest state).state⟩ :=
  rfl

/-- A round of the loop, and the rounds behind it. -/
theorem parseFeatureListLoop_of_goesOn {here next : Nat × Enumeration}
    (round : GoesOn platform limit here next) (fuel : Nat) :
    let rest := parseFeatureListLoop platform limit fuel next.1 next.2
    parseFeatureListLoop platform limit (fuel + 1) here.1 here.2 =
      ⟨(parseAt platform here).events ++
          .read (headerAddress next.2 here.1) :: rest.events,
        rest.result, rest.state⟩ := by
  intro rest
  have behind : findNext platform limit fuel here.1
      (parseAt platform here).state =
        ⟨.read (headerAddress next.2 here.1) :: rest.events, rest.result,
          rest.state⟩ := by
    rw [← round.state, findNext_run, if_neg round.more, ← round.position]
  rw [parseFeatureListLoop_inside round.inside round.room,
    bind_of_ok round.returns]
  unfold parseAt at behind ⊢
  rw [behind]

/-- A round which no other follows ends the loop. -/
theorem parseFeatureListLoop_of_last {here : Nat × Enumeration}
    (last : nextRound platform limit here = none) (fuel : Nat) :
    parseFeatureListLoop platform limit (fuel + 1) here.1 here.2 =
      lastRound platform limit here := by
  unfold lastRound
  by_cases inside : here.1 < limit
  swap
  · unfold parseFeatureListLoop
    rw [if_neg inside, if_neg inside]
    rfl
  by_cases small : limit - here.1 < dfhSize
  · unfold parseFeatureListLoop
    rw [if_pos inside, if_pos small, if_pos inside, if_pos small]
    rfl
  rw [parseFeatureListLoop_inside inside (Nat.le_of_not_lt small),
    if_pos inside, if_neg small]
  unfold nextRound at last
  rw [if_pos ⟨inside, small⟩] at last
  cases returns : (parseAt platform here).result with
  | error failure =>
      have same : (⟨(parseAt platform here).events, .error failure,
          (parseAt platform here).state⟩ :
            Run Event Failure Enumeration Unit) =
          parseAt platform here := by
        rw [← returns]
      rw [bind_of_error returns]
      exact same
  | ok value =>
      rw [returns] at last
      simp only [ite_eq_left_iff, reduceCtorEq, imp_false, not_not] at last
      have behind : findNext platform limit fuel here.1
          (parseAt platform here).state =
            ⟨[.read (headerAddress (parseAt platform here).state here.1)],
              .ok (), (parseAt platform here).state⟩ := by
        rw [findNext_run, if_pos last]
        rfl
      rw [bind_of_ok returns]
      unfold parseAt at behind ⊢
      rw [behind]

/-- The last round only fails to return if what it parses does. -/
theorem parseAt_stuck {here : Nat × Enumeration}
    (stuck : (lastRound platform limit here).result = .error .stuck) :
    (parseAt platform here).result = .error .stuck := by
  unfold lastRound at stuck
  split_ifs at stuck
  · cases stuck
  · cases returns : (parseAt platform here).result with
    | error failure =>
        rw [returns] at stuck
        exact returns.symm.trans stuck
    | ok value =>
        rw [returns] at stuck
        cases stuck

/-! ## The whole walk -/

/-- The position moves on, into what is left of the window. -/
theorem GoesOn.arrives {here next : Nat × Enumeration}
    (round : GoesOn platform limit here next)
    (noWrap : limit + 2 ^ 24 < 2 ^ 64)
    (window : WindowAt limit here.1 here.2.binfo) :
    here.1 < next.1 ∧ WindowAt limit next.1 next.2.binfo := by
  have inside := round.inside
  have small : dfhNextHdrOfst.get
      (platform.reg (headerAddress next.2 here.1)) < 2 ^ 24 :=
    Field.get_lt _ _
  have some : dfhNextHdrOfst.get
      (platform.reg (headerAddress next.2 here.1)) ≠ 0 :=
    fun zero => round.more (.inr zero)
  have position : next.1 = here.1 + dfhNextHdrOfst.get
      (platform.reg (headerAddress next.2 here.1)) := by
    rw [round.position, Word.add_of_lt (by omega)]
  have parsed : WindowAt limit here.1 next.2.binfo := by
    rw [round.state]
    exact parseFeature_windowAt (by omega) inside window round.returns
  exact ⟨by omega, parsed.of_le (by omega)⟩

/-- In a window around a position, the header there is read from there. -/
theorem WindowAt.headerAddress_eq {position : Nat} {state : Enumeration}
    (window : WindowAt limit position state.binfo) :
    headerAddress state position = position := by
  have start_le := window.start_le
  rw [headerAddress, window.mapped, Word.sub_of_le start_le, dfh]
  omega

/-- The walk over a list, from a position and a state on. -/
structure WalksForward (platform : Platform) (limit : Nat)
    (first : Nat × Enumeration) : Prop where
  /-- The rounds are those of the loop. -/
  rounds : ∀ count here,
    after (nextRound platform limit) count first = some here → ∀ fuel,
      parseFeatureListLoop platform limit (fuel + 1) here.1 here.2 =
        match nextRound platform limit here with
        | none => lastRound platform limit here
        | some next =>
            let rest := parseFeatureListLoop platform limit fuel next.1 next.2
            ⟨(parseAt platform here).events ++
                .read (headerAddress next.2 here.1) :: rest.events,
              rest.result, rest.state⟩
  window : ∀ count here,
    after (nextRound platform limit) count first = some here →
      here.2.binfo.start ≤ here.1 ∧
        here.2.binfo.start + here.2.binfo.len = limit
  forward : ∀ count here next,
    after (nextRound platform limit) count first = some here →
      nextRound platform limit here = some next → here.1 < next.1
  /-- A header is in the mapping, and is read where it is. -/
  reads : ∀ count here,
    after (nextRound platform limit) count first = some here →
      here.1 < limit → dfhSize ≤ limit - here.1 →
        headerAddress here.2 here.1 = here.1 ∧
          here.1 - here.2.binfo.start + dfhSize ≤ here.2.binfo.len ∧
          ((parseAt platform here).result = .ok () →
            headerAddress (parseAt platform here).state here.1 = here.1)
  ends : (∀ count here,
      after (nextRound platform limit) count first = some here →
        (parseAt platform here).result ≠ .error .stuck) →
    ∀ fuel > limit - first.1,
      (parseFeatureListLoop platform limit fuel first.1 first.2).result ≠
        .error .stuck

/-- Every round comes closer to the end of the list. -/
theorem parseFeatureListLoop_ends (noWrap : limit + 2 ^ 24 < 2 ^ 64)
    (fuel : Nat) {first : Nat × Enumeration}
    (window : WindowAt limit first.1 first.2.binfo)
    (enough : limit - first.1 < fuel)
    (returns : ∀ count here,
      after (nextRound platform limit) count first = some here →
        (parseAt platform here).result ≠ .error .stuck) :
    (parseFeatureListLoop platform limit fuel first.1 first.2).result ≠
      .error .stuck := by
  induction fuel generalizing first with
  | zero => exact absurd enough (Nat.not_lt_zero _)
  | succ fuel ih =>
      cases follows : nextRound platform limit first with
      | none =>
          intro stuck
          rw [parseFeatureListLoop_of_last follows] at stuck
          exact returns 0 first rfl (parseAt_stuck stuck)
      | some next =>
          have round := nextRound_eq_some follows
          obtain ⟨later, window'⟩ := round.arrives noWrap window
          have inside := round.inside
          rw [parseFeatureListLoop_of_goesOn round]
          refine ih window' (by omega) fun count here reached => ?_
          refine returns (count + 1) here ?_
          rw [after_succ, follows, Option.bind_some, reached]

theorem walksForward_of_windowAt {first : Nat × Enumeration}
    (noWrap : limit + 2 ^ 24 < 2 ^ 64)
    (window : WindowAt limit first.1 first.2.binfo) :
    WalksForward platform limit first := by
  have windows : ∀ count here,
      after (nextRound platform limit) count first = some here →
        WindowAt limit here.1 here.2.binfo := by
    intro count here reached
    have step : ∀ here next : Nat × Enumeration,
        WindowAt limit here.1 here.2.binfo →
          nextRound platform limit here = some next →
            WindowAt limit next.1 next.2.binfo :=
      fun here next window follows =>
        ((nextRound_eq_some follows).arrives noWrap window).2
    exact after_induction step window reached
  refine ⟨?_, ?_, ?_, ?_, ?_⟩
  · intro count here reached fuel
    cases follows : nextRound platform limit here with
    | none => exact parseFeatureListLoop_of_last follows fuel
    | some next =>
        exact parseFeatureListLoop_of_goesOn (nextRound_eq_some follows) fuel
  · intro count here reached
    have window := windows count here reached
    exact ⟨window.start_le, window.ends⟩
  · intro count here next reached follows
    have window := windows count here reached
    exact ((nextRound_eq_some follows).arrives noWrap window).1
  · intro count here reached inside room
    have window := windows count here reached
    have start_le := window.start_le
    have ends := window.ends
    refine ⟨window.headerAddress_eq, by omega, fun returns => ?_⟩
    have parsed : WindowAt limit here.1 (parseAt platform here).state.binfo :=
      parseFeature_windowAt (by omega) inside window returns
    exact parsed.headerAddress_eq
  · intro returns fuel enough
    exact parseFeatureListLoop_ends noWrap fuel window enough returns

/-- The walk which `parse_feature_list` makes of a list. -/
theorem parseFeatureList_walksForward (platform : Platform) (start len : Nat)
    (before : Enumeration) (noWrap : start + len + 2 ^ 24 < 2 ^ 64)
    (prepared : (buildInfoPrepare platform start len before).result = .ok ()) :
    WalksForward platform (Word.add 64 start len)
      (start, (buildInfoPrepare platform start len before).state) := by
  have limit : Word.add 64 start len = start + len :=
    Word.add_of_lt (by omega)
  rw [limit]
  apply walksForward_of_windowAt noWrap
  have nothing : Stable (fun _ => False) fun _ _ => True :=
    ⟨fun _ _ _ => False.elim, fun _ _ _ _ _ => id⟩
  have prepares : Triple (fun _ _ => True)
      (buildInfoPrepare platform start len)
      (fun _ _ state => WindowAt (start + len) start state.binfo)
      fun _ _ => True := by
    refine nothing.buildInfoPrepare_prepares fun past earlier next _ _ binfo => ?_
    rw [binfo]
    exact ⟨le_rfl, rfl, rfl⟩
  have runs := prepares [] before trivial
  rw [prepared] at runs
  exact runs

/-- A list of two ports, the second of which ends it. -/
def twoPorts : Platform where
  mmio address :=
    if address = 0x10000 then
      dfhType.prep dfhTypeFiu ||| dfhNextHdrOfst.prep 0x1000 ||| dfhId.prep 1
    else if address = 0x11000 then
      dfhType.prep dfhTypeFiu ||| dfhEol.prep 1 ||| dfhNextHdrOfst.prep 0x1000 |||
        dfhId.prep 1
    else 0
  external _ := none
  irqTable _ := 0
  nrIrqsMax := 0
  beyond := 0
  fuel := 8

theorem twoPorts_walksForward :
    WalksForward twoPorts (Word.add 64 0x10000 0x2000)
      (0x10000, (buildInfoPrepare twoPorts 0x10000 0x2000
        (initialEnumeration 0)).state) :=
  parseFeatureList_walksForward twoPorts 0x10000 0x2000 (initialEnumeration 0)
    (by decide) rfl

end LinuxDfl.Dfl
