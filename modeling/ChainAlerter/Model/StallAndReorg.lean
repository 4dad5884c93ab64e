import ChainAlerter.Library.EventRun
import ChainAlerter.Model.Alert

/-!
# `ChainAlerter.Model.StallAndReorg`: the stall and reorg monitor

`watch_chain_stall_and_reorg` of `alerter/src/stall_and_reorg.rs`. Each round of
its loop waits for a broadcast message or for the stall threshold to elapse, so
the monitor is a step function over these two events. It ends when the channel
gives an error, and panics on a message without blocks.
-/

set_option autoImplicit false

namespace ChainAlerter

/-- Config for chain stalls and reorgs. -/
structure StallAndReorgConfig where
  nonBlockImportThreshold : Nat
  reorgDepthThreshold : Nat

/-- What ends a wait of the monitor: a result of `stream.recv()`, or the timeout. -/
inductive WatchEvent where
  | recv (result : Except RecvError BlocksExt)
  | elapsed

/-- Whether the monitor runs, has returned an error, or has panicked. -/
inductive WatchStatus where
  | running
  | returned (err : Error)
  | panicked
  deriving DecidableEq, Repr

/-- The state of the monitor: its two locals, the alerts it has sent, oldest first,
and its status. -/
structure Watcher where
  timeoutFired : Option Nat
  maybeLastBestBlock : Option HashAndNumber
  alerts : List Alert
  status : WatchStatus
  deriving DecidableEq, Repr

namespace Watcher

/-- At the start no block has been seen and no timeout has fired. -/
def init : Watcher :=
  { timeoutFired := none, maybeLastBestBlock := none, alerts := [], status := .running }

/-- The recovery alert of a message that ends a stall. -/
def recoveryAlerts (latest : HashAndNumber) : Option Nat → List Alert
  | some timeout => [.chainRecovery { bestBlock := latest, duration := timeout }]
  | none => []

/-- The reorg alert of a message whose reorg reaches the threshold. -/
def reorgAlerts (config : StallAndReorgConfig) (latest : HashAndNumber) :
    Option ReorgData → List Alert
  | some data =>
      if config.reorgDepthThreshold ≤ data.retracted.length then
        [.reorg { bestBlock := latest, commonBlock := data.commonBlock
                  enacted := data.enacted, retracted := data.retracted }]
      else []
  | none => []

/-- A received message. The panic is that of `expect` on its last block. -/
def recvBlocks (config : StallAndReorgConfig) (w : Watcher) (blocksExt : BlocksExt) : Watcher :=
  let lastTimeout := w.timeoutFired
  match blocksExt.blocks.getLast? with
  | none => { w with timeoutFired := none, status := .panicked }
  | some latestBlock =>
      let latest : HashAndNumber := { number := latestBlock.number, hash := latestBlock.hash }
      -- The recovery alert goes out before the reorg alert of the same message.
      { w with
          timeoutFired := none
          maybeLastBestBlock := some latest
          alerts := w.alerts ++ recoveryAlerts latest lastTimeout
            ++ reorgAlerts config latest blocksExt.maybeReorgData }

/-- The timeout. The stall grows by the threshold each time, and is alerted once a block
has been seen. -/
def timeout (config : StallAndReorgConfig) (w : Watcher) : Watcher :=
  let nonImportDuration :=
    match w.timeoutFired with
    | some timeout => Duration.saturatingAdd timeout config.nonBlockImportThreshold
    | none => config.nonBlockImportThreshold
  let stallAlerts :=
    match w.maybeLastBestBlock with
    | some lastBestBlock =>
        [Alert.chainStall { lastBlock := lastBestBlock, duration := nonImportDuration }]
    | none => []
  { w with timeoutFired := some nonImportDuration, alerts := w.alerts ++ stallAlerts }

/-- One round of the loop. -/
def step (config : StallAndReorgConfig) (w : Watcher) (event : WatchEvent) : Option Watcher :=
  match w.status, event with
  | .running, .recv (.ok blocksExt) => some (w.recvBlocks config blocksExt)
  | .running, .recv (.error err) => some { w with status := .returned (.broadRecvErr err) }
  | .running, .elapsed => some (w.timeout config)
  | _, _ => none

end Watcher

end ChainAlerter
