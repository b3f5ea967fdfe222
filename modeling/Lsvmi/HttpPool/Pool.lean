import Lsvmi.HttpPool.DoublyLinkedList

/-!
# The endpoint pool and its critical sections

Everything the methods of `HttpEndpointPool` do while they hold the lock.  Endpoints are numbered in
the order of the configured list, after the optional shuffle.  Durations are given in nanoseconds,
as `time.ParseDuration` returns them.
-/

namespace Lsvmi.HttpPool

open Reasoning Function

def httpEndpointUrlDefault : String := "http://localhost:8428/api/v1/import/prometheus"
def httpEndpointMarkUnhealthyThresholdDefault : Int := 1

inductive EndpointState where
  | inHealthCheck | healthy | atHead
  deriving DecidableEq, Repr

structure HttpEndpointStats where
  sendBufferCount : UInt64
  sendBufferByteCount : UInt64
  sendBufferErrorCount : UInt64
  healthCheckCount : UInt64
  healthCheckErrorCount : UInt64
  state : EndpointState
  deriving DecidableEq, Repr

def newHttpEndpointStats : HttpEndpointStats := ⟨0, 0, 0, 0, 0, .inHealthCheck⟩

/-- `HttpEndpoint` without its list pointers and the parsed form of its URL. -/
structure HttpEndpoint where
  url : String
  markUnhealthyThreshold : Int
  healthy : Bool
  numErrors : Int
  errorTs : Int
  deriving DecidableEq, Repr

structure HttpEndpointConfig where
  url : String
  markUnhealthyThreshold : Int
  deriving DecidableEq, Repr

structure HttpEndpointPoolConfig where
  endpoints : List HttpEndpointConfig
  markUnhealthyThreshold : Int
  healthyRotateInterval : Int
  errorResetInterval : Int
  healthyMaxWait : Int
  sendBufferTimeout : Int
  deriving DecidableEq, Repr

structure HttpEndpointPool where
  healthy : Links EpRef
  /-- The endpoints below `size` have been made. -/
  ep : EpRef → HttpEndpoint
  size : Nat
  healthyHeadChangeTs : Int
  firstUse : Bool
  shutdown : Bool
  healthyRotateCount : UInt64
  noHealthyEpErrorCount : UInt64
  /-- By URL; an entry is made for each URL before it is used. -/
  endpointStats : String → HttpEndpointStats

namespace HttpEndpointPool

def setEp (pool : HttpEndpointPool) (r : EpRef) (ep : HttpEndpoint) : HttpEndpointPool :=
  { pool with ep := Function.update pool.ep r ep }

def updateStats (pool : HttpEndpointPool) (url : String)
    (f : HttpEndpointStats → HttpEndpointStats) : HttpEndpointPool :=
  { pool with endpointStats := Function.update pool.endpointStats url (f (pool.endpointStats url)) }

def setState (pool : HttpEndpointPool) (r : EpRef) (state : EndpointState) : HttpEndpointPool :=
  pool.updateStats (pool.ep r).url fun stats => { stats with state }

section

variable (pool : HttpEndpointPool) (r : EpRef) (ep : HttpEndpoint) (url : String)
  (f : HttpEndpointStats → HttpEndpointStats) (state : EndpointState)

@[simp] theorem setEp_ep : (pool.setEp r ep).ep = update pool.ep r ep := rfl
@[simp] theorem setEp_healthy : (pool.setEp r ep).healthy = pool.healthy := rfl
@[simp] theorem setEp_size : (pool.setEp r ep).size = pool.size := rfl
@[simp] theorem updateStats_ep : (pool.updateStats url f).ep = pool.ep := rfl
@[simp] theorem updateStats_healthy : (pool.updateStats url f).healthy = pool.healthy := rfl
@[simp] theorem updateStats_size : (pool.updateStats url f).size = pool.size := rfl
@[simp] theorem setState_ep : (pool.setState r state).ep = pool.ep := rfl
@[simp] theorem setState_healthy : (pool.setState r state).healthy = pool.healthy := rfl
@[simp] theorem setState_size : (pool.setState r state).size = pool.size := rfl

end

def moveToHealthy (pool : HttpEndpointPool) (r : EpRef) : HttpEndpointPool :=
  if (pool.ep r).healthy then pool
  else
    let pool := pool.setEp r { pool.ep r with healthy := true, numErrors := 0 }
    let pool := { pool with healthy := addToTail pool.healthy r }
    pool.setState r (if pool.healthy.head = some r then .atHead else .healthy)

def countError (pool : HttpEndpointPool) (r : EpRef) (timeNow : Int) : HttpEndpointPool :=
  pool.setEp r { pool.ep r with numErrors := (pool.ep r).numErrors + 1, errorTs := timeNow }

def unlinkFailed (pool : HttpEndpointPool) (r : EpRef) : HttpEndpointPool :=
  { pool with healthy := remove pool.healthy r, firstUse := true }

def readdAtTail (pool : HttpEndpointPool) (r : EpRef) : HttpEndpointPool :=
  { pool with healthy := addToTail pool.healthy r }.setState r .healthy

def moveToHealthCheck (pool : HttpEndpointPool) (r : EpRef) : HttpEndpointPool :=
  (pool.setState r .inHealthCheck).setEp r { pool.ep r with healthy := false }

def markHead (pool : HttpEndpointPool) : HttpEndpointPool :=
  match pool.healthy.head with
  | none => pool
  | some head => pool.setState head .atHead

/-- `ReportError` at `timeNow`, and whether it starts a health check. -/
def reportError (pool : HttpEndpointPool) (r : EpRef) (timeNow : Int) : HttpEndpointPool × Bool :=
  let pool := pool.countError r timeNow
  if !(pool.ep r).healthy then (pool, false)
  else
    let pool := pool.unlinkFailed r
    if (pool.ep r).numErrors < (pool.ep r).markUnhealthyThreshold then
      ((pool.readdAtTail r).markHead, false)
    else ((pool.moveToHealthCheck r).markHead, true)

theorem markHead_ep (pool : HttpEndpointPool) : pool.markHead.ep = pool.ep := by
  unfold markHead
  split <;> rfl

theorem markHead_healthy (pool : HttpEndpointPool) : pool.markHead.healthy = pool.healthy := by
  unfold markHead
  split <;> rfl

theorem markHead_size (pool : HttpEndpointPool) : pool.markHead.size = pool.size := by
  unfold markHead
  split <;> rfl

theorem reportError_ep (pool : HttpEndpointPool) (r : EpRef) (now : Int) :
    (pool.reportError r now).1.ep = update pool.ep r { pool.ep r with
      numErrors := (pool.ep r).numErrors + 1, errorTs := now
      healthy := (pool.ep r).healthy && !(pool.reportError r now).2 } := by
  unfold reportError
  simp only
  split
  · simp [countError]
  · split
    · simp [markHead_ep, readdAtTail, unlinkFailed, countError]
    · simp [markHead_ep, moveToHealthCheck, unlinkFailed, countError]

def rotate (pool : HttpEndpointPool) (r : EpRef) (timeNow : Int) : HttpEndpointPool × EpRef :=
  if pool.healthy.head = pool.healthy.tail then (pool, r)
  else
    let pool := { pool with healthy := addToTail (remove pool.healthy r) r }.setState r .healthy
    match pool.healthy.head with
    | none => (pool, r)
    | some r =>
      ({ pool.setState r .atHead with
          healthyHeadChangeTs := timeNow, healthyRotateCount := pool.healthyRotateCount + 1 }, r)

def rotateAsNeeded (cfg : HttpEndpointPoolConfig) (pool : HttpEndpointPool) (r : EpRef)
    (timeNow : Int) : HttpEndpointPool × EpRef :=
  if pool.firstUse then ({ pool with healthyHeadChangeTs := timeNow, firstUse := false }, r)
  else if cfg.healthyRotateInterval = 0 ∨ (0 < cfg.healthyRotateInterval ∧
      cfg.healthyRotateInterval ≤ timeNow - pool.healthyHeadChangeTs) then
    pool.rotate r timeNow
  else (pool, r)

def resetErrorsAsNeeded (cfg : HttpEndpointPoolConfig) (pool : HttpEndpointPool) (r : EpRef)
    (timeNow : Int) : HttpEndpointPool :=
  let ep := pool.ep r
  if 0 < ep.numErrors ∧ 0 < cfg.errorResetInterval ∧
      cfg.errorResetInterval ≤ timeNow - ep.errorTs then
    pool.setEp r { ep with numErrors := 0 }
  else pool

/-- The part of `GetCurrentHealthy` after the wait for a healthy endpoint, with `r` at the head. -/
def useHead (cfg : HttpEndpointPoolConfig) (pool : HttpEndpointPool) (r : EpRef) (timeNow : Int) :
    HttpEndpointPool × EpRef :=
  let (pool, r) := pool.rotateAsNeeded cfg r timeNow
  (pool.resetErrorsAsNeeded cfg r timeNow, r)

end HttpEndpointPool

/-- The endpoints stay what they are but for their errors and their places, and the stats stay as they
are but for the states. -/
structure Kept (pool pool' : HttpEndpointPool) : Prop where
  size_eq : pool'.size = pool.size
  shutdown_eq : pool'.shutdown = pool.shutdown
  noHealthyEp_eq : pool'.noHealthyEpErrorCount = pool.noHealthyEpErrorCount
  url_eq : ∀ r, (pool'.ep r).url = (pool.ep r).url
  threshold_eq : ∀ r, (pool'.ep r).markUnhealthyThreshold = (pool.ep r).markUnhealthyThreshold
  stats_eq : ∀ url, ∃ state, pool'.endpointStats url = { pool.endpointStats url with state }

section

variable {pool pool' pool'' : HttpEndpointPool} {r : EpRef}

theorem Kept.of_eq (hsize : pool'.size = pool.size) (hshut : pool'.shutdown = pool.shutdown)
    (hnone : pool'.noHealthyEpErrorCount = pool.noHealthyEpErrorCount) (hep : pool'.ep = pool.ep)
    (hstats : pool'.endpointStats = pool.endpointStats) : Kept pool pool' := by
  refine ⟨hsize, hshut, hnone, fun r => by rw [hep], fun r => by rw [hep], fun url => ?_⟩
  exact ⟨(pool.endpointStats url).state, by rw [hstats]⟩

theorem Kept.refl (pool : HttpEndpointPool) : Kept pool pool := .of_eq rfl rfl rfl rfl rfl

theorem Kept.trans (h : Kept pool pool') (h' : Kept pool' pool'') : Kept pool pool'' where
  size_eq := h'.size_eq.trans h.size_eq
  shutdown_eq := h'.shutdown_eq.trans h.shutdown_eq
  noHealthyEp_eq := h'.noHealthyEp_eq.trans h.noHealthyEp_eq
  url_eq r := (h'.url_eq r).trans (h.url_eq r)
  threshold_eq r := (h'.threshold_eq r).trans (h.threshold_eq r)
  stats_eq url := by
    obtain ⟨state, hstate⟩ := h.stats_eq url
    obtain ⟨state', hstate'⟩ := h'.stats_eq url
    exact ⟨state', by rw [hstate', hstate]⟩

theorem Kept.setEp (h : Kept pool pool') {ep : HttpEndpoint}
    (hep : pool''.ep = update pool'.ep r ep) (hurl : ep.url = (pool'.ep r).url)
    (hthreshold : ep.markUnhealthyThreshold = (pool'.ep r).markUnhealthyThreshold)
    (hsize : pool''.size = pool'.size) (hshut : pool''.shutdown = pool'.shutdown)
    (hnone : pool''.noHealthyEpErrorCount = pool'.noHealthyEpErrorCount)
    (hstats : pool''.endpointStats = pool'.endpointStats) : Kept pool pool'' := by
  refine h.trans ⟨hsize, hshut, hnone, fun x => ?_, fun x => ?_, fun url => ?_⟩
  · rw [hep]
    by_cases hx : x = r
    · rw [hx, update_self, hurl]
    · rw [update_of_ne hx]
  · rw [hep]
    by_cases hx : x = r
    · rw [hx, update_self, hthreshold]
    · rw [update_of_ne hx]
  · exact ⟨(pool'.endpointStats url).state, by rw [hstats]⟩

theorem Kept.setState (h : Kept pool pool') {state : EndpointState} (hep : pool''.ep = pool'.ep)
    (hsize : pool''.size = pool'.size) (hshut : pool''.shutdown = pool'.shutdown)
    (hnone : pool''.noHealthyEpErrorCount = pool'.noHealthyEpErrorCount)
    (hstats : pool''.endpointStats = (pool'.setState r state).endpointStats) : Kept pool pool'' := by
  refine h.trans ⟨hsize, hshut, hnone, fun x => by rw [hep], fun x => by rw [hep], fun url => ?_⟩
  rw [hstats]
  show ∃ state', update pool'.endpointStats _ _ url = _
  by_cases hurl : url = (pool'.ep r).url
  · rw [hurl, update_self]
    exact ⟨state, rfl⟩
  · rw [update_of_ne hurl]
    exact ⟨(pool'.endpointStats url).state, rfl⟩

open HttpEndpointPool

theorem kept_markHead (pool : HttpEndpointPool) : Kept pool pool.markHead := by
  unfold markHead
  split
  · exact .refl pool
  · exact (Kept.refl pool).setState rfl rfl rfl rfl rfl

theorem kept_moveToHealthy (pool : HttpEndpointPool) (r : EpRef) :
    Kept pool (pool.moveToHealthy r) := by
  unfold moveToHealthy
  split
  · exact .refl pool
  · have hset : Kept pool (pool.setEp r { pool.ep r with healthy := true, numErrors := 0 }) :=
      (Kept.refl pool).setEp rfl rfl rfl rfl rfl rfl rfl
    exact hset.setState rfl rfl rfl rfl rfl

theorem kept_reportError (pool : HttpEndpointPool) (r : EpRef) (now : Int) :
    Kept pool (pool.reportError r now).1 := by
  have hcount : Kept pool (pool.countError r now) :=
    (Kept.refl pool).setEp rfl rfl rfl rfl rfl rfl rfl
  unfold reportError
  simp only
  split
  · exact hcount
  split
  · have hadd : Kept pool (((pool.countError r now).unlinkFailed r).readdAtTail r) :=
      hcount.setState rfl rfl rfl rfl rfl
    exact hadd.trans (kept_markHead _)
  have hstate : Kept pool
      (((pool.countError r now).unlinkFailed r).setState r .inHealthCheck) :=
    hcount.setState rfl rfl rfl rfl rfl
  have hmove : Kept pool (((pool.countError r now).unlinkFailed r).moveToHealthCheck r) :=
    hstate.setEp rfl rfl rfl rfl rfl rfl rfl
  exact hmove.trans (kept_markHead _)

theorem kept_rotate (pool : HttpEndpointPool) (r : EpRef) (now : Int) :
    Kept pool (pool.rotate r now).1 := by
  unfold rotate
  split
  · exact .refl pool
  have hback : Kept pool
      ({ pool with healthy := addToTail (remove pool.healthy r) r }.setState r .healthy) :=
    (Kept.refl pool).setState rfl rfl rfl rfl rfl
  simp only
  split
  · exact hback
  · exact hback.setState rfl rfl rfl rfl rfl

theorem kept_useHead (cfg : HttpEndpointPoolConfig) (pool : HttpEndpointPool) (r : EpRef)
    (now : Int) : Kept pool (pool.useHead cfg r now).1 := by
  have hrotate : Kept pool (pool.rotateAsNeeded cfg r now).1 := by
    unfold rotateAsNeeded
    split
    · exact .of_eq rfl rfl rfl rfl rfl
    · split
      · exact kept_rotate pool r now
      · exact .refl pool
  unfold useHead resetErrorsAsNeeded
  simp only
  split
  · exact hrotate.setEp rfl rfl rfl rfl rfl rfl rfl
  · exact hrotate

end

def emptyHttpEndpointPool : HttpEndpointPool :=
  { healthy := Links.empty, ep := fun _ => ⟨"", 0, false, 0, 0⟩, size := 0
    healthyHeadChangeTs := 0, firstUse := true, shutdown := false, healthyRotateCount := 0
    noHealthyEpErrorCount := 0, endpointStats := fun _ => newHttpEndpointStats }

def effectiveThreshold (cfg : HttpEndpointPoolConfig) (epCfg : HttpEndpointConfig) : Int :=
  let threshold :=
    if epCfg.markUnhealthyThreshold ≤ 0 then cfg.markUnhealthyThreshold
    else epCfg.markUnhealthyThreshold
  if threshold ≤ 0 then httpEndpointMarkUnhealthyThresholdDefault else threshold

def newHttpEndpoint (cfg : HttpEndpointPoolConfig) (epCfg : HttpEndpointConfig) : HttpEndpoint :=
  { url := if epCfg.url = "" then httpEndpointUrlDefault else epCfg.url
    markUnhealthyThreshold := effectiveThreshold cfg epCfg
    healthy := false, numErrors := 0, errorTs := 0 }

def HttpEndpointPool.register (pool : HttpEndpointPool) (ep : HttpEndpoint) : HttpEndpointPool :=
  { (pool.setEp pool.size ep).updateStats ep.url fun _ => newHttpEndpointStats with
    size := pool.size + 1 }

/-- The body of the loop over the configured endpoints; `validUrl` says what `url.Parse` accepts. -/
def addEndpoint (validUrl : String → Bool) (cfg : HttpEndpointPoolConfig)
    (pool : HttpEndpointPool) (epCfg : HttpEndpointConfig) : Option HttpEndpointPool :=
  let ep := newHttpEndpoint cfg epCfg
  if validUrl ep.url then some ((pool.register ep).moveToHealthy pool.size) else none

theorem addEndpoint_eq {validUrl : String → Bool} {cfg : HttpEndpointPoolConfig}
    {pool pool' : HttpEndpointPool} {epCfg : HttpEndpointConfig}
    (h : addEndpoint validUrl cfg pool epCfg = some pool') :
    pool' = (pool.register (newHttpEndpoint cfg epCfg)).moveToHealthy pool.size := by
  simp only [addEndpoint] at h
  split at h
  · cases h
    rfl
  · cases h

def configuredEndpoints (cfg : HttpEndpointPoolConfig) : List HttpEndpointConfig :=
  if cfg.endpoints = [] then [⟨httpEndpointUrlDefault, 0⟩] else cfg.endpoints

theorem configuredEndpoints_pos (cfg : HttpEndpointPoolConfig) :
    0 < (configuredEndpoints cfg).length := by
  unfold configuredEndpoints
  split
  · exact Nat.one_pos
  · exact List.length_pos_iff.mpr ‹_›

def newHttpEndpointPool (validUrl : String → Bool) (cfg : HttpEndpointPoolConfig) :
    Option HttpEndpointPool :=
  (configuredEndpoints cfg).foldlM (addEndpoint validUrl cfg) emptyHttpEndpointPool

end Lsvmi.HttpPool
