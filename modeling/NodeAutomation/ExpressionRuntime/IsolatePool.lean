import NodeAutomation.Lib.OrderedMap

/-! The isolates in which expressions run: an evaluator that lends a bridge to each caller, and
the pool behind it, which either keeps its size or scales to nothing while it is idle. -/

namespace NodeAutomation.ExpressionEvaluator

/-- Bridges are numbered by the calls of `createBridge`; `builds` tells for which of these calls
the constructor of the bridge returns. -/
structure Setting where
  size : Nat
  idleTimeoutMs : Option Nat
  builds : Nat → Bool

def Setting.scales (setting : Setting) : Bool := setting.idleTimeoutMs.isSome

structure IsolatePool where
  bridges : List Nat := []
  disposed : Bool := false
  warming : Nat := 0
  deriving DecidableEq, Repr

inductive PoolError where
  | disposed
  | exhausted
  deriving DecidableEq, Repr

inductive Creator (κ : Type*) where
  | replenish (pool attempt : Nat)
  | coldStart (caller : κ)

/-- A bridge that somebody waits for. -/
structure Creation (κ : Type*) where
  bridge : Nat
  creator : Creator κ

/-- An `initialize` of a pool that waits until all its bridges have settled. -/
structure Initialization where
  pool : Nat
  results : List (Nat × Option Bool)
  scalesUp : Bool

inductive Disposer where
  | scaleUp
  | scaleDown
  | evaluator
  deriving DecidableEq, Repr

def Initialization.fulfilled (init : Initialization) : List Nat :=
  (init.results.filter fun result => result.2 = some true).map Prod.fst

/-- A `dispose` of a pool that waits for the bridges the pool still creates. -/
structure Disposal where
  pool : Nat
  disposer : Disposer

/-- The pools ever created have numbers; a pool that does not scale is the pool 0. `releases` and
`retries` hold what goes on later with a `replenish`. -/
structure State (κ : Type*) where
  calls : Nat := 0
  creations : List (Creation κ) := []
  initializations : List Initialization := []
  disposedBridges : List Nat := []
  pools : List IsolatePool := []
  innerPool : Option Nat := none
  pendingScaleUp : Bool := false
  pendingScaleDown : Bool := false
  idleTimer : Bool := false
  disposed : Bool := false
  draining : Bool := false
  disposals : List Disposal := []
  disposeCompleted : Bool := false
  bridgesByCaller : OrderedMap κ Nat := ∅
  releases : List Nat := []
  retries : List (Nat × Nat) := []

variable {κ : Type*}

def State.initial (setting : Setting) : State κ :=
  { pools := if setting.scales then [] else [{}] }

def Creator.replenishes (pool : Nat) : Creator κ → Bool
  | .replenish p _ => p = pool
  | .coldStart _ => false

namespace State

variable (setting : Setting) (s : State κ)

def isDisposed (bridge : Nat) : Bool := bridge ∈ s.disposedBridges

def disposeBridge (bridge : Nat) : State κ :=
  if s.isDisposed bridge then s else { s with disposedBridges := s.disposedBridges ++ [bridge] }

def modifyPool (p : Nat) (change : IsolatePool → IsolatePool) : State κ :=
  { s with pools := s.pools.modify p change }

def createBridge (creator : Creator κ) : State κ :=
  { s with calls := s.calls + 1, creations := s.creations ++ [⟨s.calls, creator⟩] }

def replenishPromises (p : Nat) : Nat := s.creations.countP (·.creator.replenishes p)

def maxReplenishRetries : Nat := 3

def replenish (p attempt : Nat) : State κ :=
  match s.pools[p]? with
  | none => s
  | some pool =>
    if pool.disposed then s
    else if setting.size ≤ pool.bridges.length + pool.warming then s
    else
      (s.modifyPool p fun pool => { pool with warming := pool.warming + 1 }).createBridge
        (.replenish p attempt)

def beginInitialize (p : Nat) (scalesUp : Bool) : State κ :=
  { s with
    calls := s.calls + setting.size
    initializations := s.initializations ++
      [⟨p, (List.range' s.calls setting.size).map fun bridge => (bridge, none), scalesUp⟩] }

def acquireIsolate (p : Nat) : Except PoolError Nat × State κ :=
  match s.pools[p]? with
  | none => (.error .exhausted, s)
  | some pool =>
    if pool.disposed then (.error .disposed, s)
    else
      match pool.bridges with
      | [] => (.error .exhausted, s)
      | bridge :: rest =>
        (.ok bridge, (s.modifyPool p fun pool => { pool with bridges := rest }).replenish setting p 0)

def releaseIsolate (p bridge : Nat) : State κ :=
  if s.isDisposed bridge then s.replenish setting p 0
  else { s.disposeBridge bridge with releases := s.releases ++ [p] }

def beginDispose (p : Nat) (disposer : Disposer) : State κ :=
  { s.modifyPool p fun pool => { pool with disposed := true } with
    disposals := s.disposals ++ [⟨p, disposer⟩] }

/-! A pool that scales to nothing while it is idle -/

def createInnerPool : Nat × State κ := (s.pools.length, { s with pools := s.pools ++ [{}] })

def resetIdleTimer : State κ := { s with idleTimer := true }

def triggerScaleUp : State κ :=
  if s.pendingScaleUp || s.innerPool.isSome || s.disposed then s
  else
    let (p, s) := s.createInnerPool
    beginInitialize setting { s with pendingScaleUp := true } p true

def triggerScaleDown : State κ :=
  if s.pendingScaleDown || s.pendingScaleUp || s.disposed then s
  else
    match s.innerPool with
    | none => s
    | some p => beginDispose { s with innerPool := none, pendingScaleDown := true } p .scaleDown

def acquireIdleScaling : Except PoolError Nat × State κ :=
  if s.disposed then (.error .disposed, s)
  else
    match s.innerPool with
    | none => (.error .exhausted, s.triggerScaleUp setting)
    | some p => s.resetIdleTimer.acquireIsolate setting p

def releaseIdleScaling (bridge : Nat) : State κ :=
  match s.innerPool, s.disposed with
  | some p, false => s.releaseIsolate setting p bridge
  | _, _ => s.disposeBridge bridge

def initializePool : State κ :=
  if setting.scales then
    let (p, s) := s.createInnerPool
    beginInitialize setting { s with innerPool := some p } p false
  else s.beginInitialize setting 0 false

def acquirePool : Except PoolError Nat × State κ :=
  if setting.scales then s.acquireIdleScaling setting else s.acquireIsolate setting 0

def acquire [DecidableEq κ] (caller : κ) : State κ :=
  match s.bridgesByCaller.get caller with
  | some _ => s
  | none =>
    match s.acquirePool setting with
    | (.ok bridge, s) => { s with bridgesByCaller := s.bridgesByCaller.set caller bridge }
    | (.error .exhausted, s) => s.createBridge (.coldStart caller)
    | (.error .disposed, s) => s

def release [DecidableEq κ] (caller : κ) : State κ :=
  match s.bridgesByCaller.get caller with
  | none => s
  | some bridge =>
    let s := { s with bridgesByCaller := s.bridgesByCaller.delete caller }
    if setting.scales then s.releaseIdleScaling setting bridge else s.releaseIsolate setting 0 bridge

/-- Both calls of an idle scaling pool share one promise. -/
def dispose : State κ :=
  if setting.scales then
    if s.disposed then s else { s with disposed := true, idleTimer := false, draining := true }
  else s.beginDispose 0 .evaluator

/-- Once the pool is disposed no transition starts, so those that were pending are over when
none is. -/
def drained : State κ :=
  if s.draining && !s.pendingScaleUp && !s.pendingScaleDown then
    match s.innerPool with
    | none => { s with draining := false, disposeCompleted := true }
    | some p => beginDispose { s with draining := false, innerPool := none } p .evaluator
  else s

/-- The bridge of a creation is ready, or its constructor or its `initialize` has thrown. -/
def createSettles [DecidableEq κ] (i : Nat) (initialized : Bool) : State κ :=
  match s.creations[i]? with
  | none => s
  | some creation =>
    let ok := initialized && setting.builds creation.bridge
    let s := { s with creations := s.creations.eraseIdx i }
    match creation.creator with
    | .coldStart caller =>
      if ok then { s with bridgesByCaller := s.bridgesByCaller.set caller creation.bridge } else s
    | .replenish p attempt =>
      let s := s.modifyPool p fun pool => { pool with warming := pool.warming - 1 }
      if ok then
        match s.pools[p]? with
        | none => s
        | some pool =>
          if pool.disposed then s.disposeBridge creation.bridge
          else s.modifyPool p fun pool => { pool with bridges := pool.bridges ++ [creation.bridge] }
      else if attempt < maxReplenishRetries then { s with retries := s.retries ++ [(p, attempt + 1)] }
      else s

/-- One of the bridges that an `initialize` creates has settled. -/
def initSettles (i j : Nat) (initialized : Bool) : State κ :=
  { s with
    initializations := s.initializations.modify i fun init =>
      { init with
        results := init.results.modify j fun result =>
          (result.1, result.2 <|> some (initialized && setting.builds result.1)) } }

/-- All bridges of an `initialize` have settled: those that are ready go to the pool. It fails if
the pool is left without a bridge. -/
def initialized (i : Nat) : State κ :=
  match s.initializations[i]? with
  | none => s
  | some init =>
    if init.results.all (·.2.isSome) then
      let s := { s with initializations := s.initializations.eraseIdx i }
      let s := s.modifyPool init.pool fun pool => { pool with bridges := pool.bridges ++ init.fulfilled }
      let failed := ((s.pools[init.pool]?.map (·.bridges)).getD []).isEmpty
      if init.scalesUp then
        if failed || s.disposed then s.beginDispose init.pool .scaleUp
        else resetIdleTimer { s with innerPool := some init.pool, pendingScaleUp := false }
      else if setting.scales && !failed then s.resetIdleTimer
      else s
    else s

def releaseGoesOn (i : Nat) : State κ :=
  match s.releases[i]? with
  | none => s
  | some p => replenish setting { s with releases := s.releases.eraseIdx i } p 0

def retryFires (i : Nat) : State κ :=
  match s.retries[i]? with
  | none => s
  | some (p, attempt) => replenish setting { s with retries := s.retries.eraseIdx i } p attempt

def idleTimeout : State κ :=
  if s.idleTimer then triggerScaleDown { s with idleTimer := false } else s

def disposeEnds (disposal : Disposal) : State κ :=
  match disposal.disposer with
  | .scaleUp => { s with pendingScaleUp := false }
  | .scaleDown => { s with pendingScaleDown := false }
  | .evaluator => { s with disposeCompleted := true }

/-- Nothing replenishes a pool that is disposed, so a `dispose` has waited for all promises when
none is left. The bridges are disposed and the pool is emptied. -/
def disposeGoesOn (i : Nat) : State κ :=
  match s.disposals[i]? with
  | none => s
  | some disposal =>
    if s.replenishPromises disposal.pool = 0 then
      let bridges := (s.pools[disposal.pool]?.map (·.bridges)).getD []
      let s := { s with disposals := s.disposals.eraseIdx i }
      let s := (bridges.foldl disposeBridge s).modifyPool disposal.pool fun pool => { pool with bridges := [] }
      s.disposeEnds disposal
    else s

end State

inductive Event (κ : Type*) where
  | initializePool
  | acquire (caller : κ)
  | release (caller : κ)
  | dispose
  | createSettles (i : Nat) (initialized : Bool)
  | initSettles (i j : Nat) (initialized : Bool)
  | initialized (i : Nat)
  | releaseGoesOn (i : Nat)
  | retryFires (i : Nat)
  | idleTimeout
  | drained
  | disposeGoesOn (i : Nat)

def next [DecidableEq κ] (setting : Setting) (s : State κ) : Event κ → State κ
  | .initializePool => s.initializePool setting
  | .acquire caller => s.acquire setting caller
  | .release caller => s.release setting caller
  | .dispose => s.dispose setting
  | .createSettles i initialized => s.createSettles setting i initialized
  | .initSettles i j initialized => s.initSettles setting i j initialized
  | .initialized i => s.initialized setting i
  | .releaseGoesOn i => s.releaseGoesOn setting i
  | .retryFires i => s.retryFires setting i
  | .idleTimeout => s.idleTimeout
  | .drained => s.drained
  | .disposeGoesOn i => s.disposeGoesOn i

end NodeAutomation.ExpressionEvaluator
