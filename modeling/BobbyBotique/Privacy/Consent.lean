import BobbyBotique.Foundation.Dict
import BobbyBotique.Foundation.Run
import BobbyBotique.Foundation.Text
import Mathlib.Data.Rat.Defs
import Mathlib.Algebra.Order.Ring.Unbundled.Rat

/-!
# Consent generations and provider leases

The rows of one user in `users`, `chats` and `private_data_leases`, the sequence
that all generations are drawn from, and the privacy barriers under way.  A
label is one transaction; those that take the advisory lock and those that do
not are interleaved freely.  A renewal takes no lock and may decide on a
snapshot that is older than its write, so it has two labels.
-/

namespace BobbyBotique.Privacy

abbrev LeaseId := Nat
abbrev BarrierId := Nat

/-- `_LEASE_TTL_SECONDS`. -/
def leaseTtl : ℚ := 120

/-- `_LEASE_MAX_LIFETIME_SECONDS`. -/
def leaseMaxLifetime : ℚ := 15 * 60

/-- The consent columns of `chats`. -/
structure Chat where
  memoryEpoch : Nat
  privateDataBlocked : Bool
  ltmEnabled : Bool
  deriving DecidableEq, Repr

/-- A row of `private_data_leases`. -/
structure Lease where
  memoryEpoch : Nat
  purpose : String
  createdAt : ℚ
  expiresAt : ℚ
  deriving DecidableEq, Repr

/-- `purpose LIKE 'ltm:%'`. -/
def isLtm (purpose : String) : Bool := "ltm:".toList.isPrefixOf purpose.toList

/-- Where `private_data_barrier` is: its barrier has committed, the last check
found no active lease, or it has yielded. -/
inductive Stage where
  | draining
  | drained
  | yielded
  deriving DecidableEq, Repr

/-- A barrier that committed, with what it captured from the row.  `compensated`
holds once its compensation has run, `completed` once its second phase has
committed. -/
structure Barrier where
  barrierEpoch : Nat
  previousLtmEnabled : Bool
  ltmOnly : Bool
  stage : Stage
  compensated : Bool
  completed : Bool
  deriving DecidableEq, Repr

structure Consent where
  now : ℚ
  sequence : Nat
  account : Bool
  chat : Option Chat
  leases : Dict LeaseId Lease
  renewals : Dict LeaseId ℚ
  barriers : Dict BarrierId Barrier

inductive ConsentLabel where
  | tick (instant : ℚ)
  | burn
  | enroll
  | createChat (ltmEnabled : Bool)
  | setLtmEnabled (enabled : Bool)
  | acquire (lease : LeaseId) (expectedEpoch : Option Nat) (purpose : String) (requireLtm : Bool)
  | renewSnapshot (lease : LeaseId)
  | renewWrite (lease : LeaseId)
  | release (lease : LeaseId)
  | purge
  | barrier (barrier : BarrierId) (ltmOnly : Bool)
  | drain (barrier : BarrierId)
  | sweep (barrier : BarrierId)
  | compensate (barrier : BarrierId)
  | eraseAccount (barrier : BarrierId)
  | clearMemories (barrier : BarrierId)
  deriving DecidableEq, Repr

/-- `capture_epoch`. -/
def captureEpoch : Option Chat → Option Nat
  | none => none
  | some chat =>
    if chat.privateDataBlocked || !chat.ltmEnabled then none else some chat.memoryEpoch

/-- The lease is in the scope of the barrier. -/
def inScope (ltmOnly : Bool) (lease : Lease) : Bool := !ltmOnly || isLtm lease.purpose

namespace Consent

/-- The row that authorizes a snapshot of this generation. -/
def current (state : Consent) (expectedEpoch : Nat) (requireLtm : Bool) : Bool :=
  match state.chat with
  | none => false
  | some chat =>
    state.account && decide (chat.memoryEpoch = expectedEpoch) && !chat.privateDataBlocked &&
      (!requireLtm || chat.ltmEnabled)

/-- What `private_data_lease` yields.  The primary key refuses an identity that
is in the table. -/
def grants (state : Consent) (lease : LeaseId) (expectedEpoch : Option Nat) (purpose : String)
    (requireLtm : Bool) : Bool :=
  match expectedEpoch with
  | none => false
  | some epoch =>
    !(strip purpose.toList).isEmpty && !state.leases.contains lease &&
      state.current epoch requireLtm

/-- The row conditions of `_renew_private_data_lease`. -/
def renewable (state : Consent) (lease : Lease) : Bool :=
  decide (state.now < lease.createdAt + leaseMaxLifetime) &&
    state.current lease.memoryEpoch (isLtm lease.purpose)

/-- The rows that a drain to this generation is about, whatever their expiry. -/
def old (beforeEpoch : Nat) (ltmOnly : Bool) (lease : Lease) : Bool :=
  decide (lease.memoryEpoch < beforeEpoch) && inScope ltmOnly lease

def setBarrier (state : Consent) (name : BarrierId) (barrier : Barrier) : Consent :=
  { state with barriers := state.barriers.set name barrier }

/-- `private_data_barrier` up to its commit.  Without an account it raises. -/
def commitBarrier (state : Consent) (name : BarrierId) (ltmOnly : Bool) : Consent :=
  if state.account then
    let ltmEnabled := match state.chat with
      | none => true
      | some chat => chat.ltmEnabled
    { state with
      sequence := state.sequence + 1
      chat := some ⟨state.sequence + 1, true, ltmEnabled⟩
      barriers := state.barriers.set name
        ⟨state.sequence + 1, ltmEnabled, ltmOnly, .draining, false, false⟩ }
  else state

/-- The chat row is blocked at exactly this barrier's generation. -/
def holds (state : Consent) (barrier : Barrier) : Bool :=
  match state.chat with
  | none => false
  | some chat => decide (chat.memoryEpoch = barrier.barrierEpoch) && chat.privateDataBlocked

/-- Unblock the row under a new generation. -/
def unblock (state : Consent) (ltmEnabled : Bool) : Consent :=
  { state with
    sequence := state.sequence + 1
    chat := some ⟨state.sequence + 1, false, ltmEnabled⟩ }

/-- `restore_private_data_barrier`. -/
def restore (state : Consent) (barrier : Barrier) : Consent :=
  if state.holds barrier then state.unblock barrier.previousLtmEnabled else state

/-- `INSERT INTO public.chats`: the default of `memory_epoch` is the sequence. -/
def insertChat (state : Consent) (ltmEnabled : Bool) : Consent :=
  { state with
    sequence := state.sequence + 1
    chat := some ⟨state.sequence + 1, false, ltmEnabled⟩ }

/-- `set_ltm_enabled`, with the trigger that gives a revocation a new generation. -/
def setLtm (state : Consent) (enabled : Bool) : Consent :=
  match state.chat with
  | none => if state.account then state.insertChat enabled else state
  | some chat =>
    if chat.privateDataBlocked then state
    else if chat.ltmEnabled && !enabled then
      { state with
        sequence := state.sequence + 1
        chat := some { chat with ltmEnabled := false, memoryEpoch := state.sequence + 1 } }
    else { state with chat := some { chat with ltmEnabled := enabled } }

def step (state : Consent) : ConsentLabel → Consent
  | .tick instant => { state with now := max state.now instant }
  -- `nextval` of another user or of a transaction that rolls back
  | .burn => { state with sequence := state.sequence + 1 }
  | .enroll => { state with account := true }
  | .createChat ltmEnabled =>
    match state.chat with
    | some _ => state
    | none => if state.account then state.insertChat ltmEnabled else state
  | .setLtmEnabled enabled => state.setLtm enabled
  | .acquire lease expectedEpoch purpose requireLtm =>
    if state.grants lease expectedEpoch purpose requireLtm then
      match state.chat with
      | none => state
      | some chat => { state with
          leases := state.leases.set lease
            ⟨chat.memoryEpoch, purpose, state.now,
              min (state.now + leaseTtl) (state.now + leaseMaxLifetime)⟩ }
    else state
  | .renewSnapshot lease =>
    match state.leases.get? lease with
    | none => state
    | some row =>
      if state.renewable row then { state with renewals := state.renewals.set lease state.now }
      else state
  | .renewWrite lease =>
    match state.renewals.get? lease with
    | none => state
    -- a row that was deleted in between is not updated
    | some started => { state with
        leases := state.leases.modify lease fun row => { row with
          expiresAt := min (row.createdAt + leaseMaxLifetime) (started + leaseTtl) }
        renewals := state.renewals.del lease }
  | .release lease => { state with leases := state.leases.del lease }
  | .purge => { state with
      leases := state.leases.retain fun _ row => decide (state.now < row.expiresAt) }
  | .barrier name ltmOnly =>
    match state.barriers.get? name with
    | some _ => state
    | none => state.commitBarrier name ltmOnly
  -- one turn of the loop: the expired rows go, and the active ones are counted
  | .drain name =>
    match state.barriers.get? name with
    | none => state
    | some barrier =>
      let leases := state.leases.retain fun _ row => decide (state.now < row.expiresAt)
      let active := leases.values.any fun row => old barrier.barrierEpoch barrier.ltmOnly row
      let kept := { state with leases := leases }
      if barrier.stage = .draining ∧ active = false then
        kept.setBarrier name { barrier with stage := .drained }
      else kept
  | .sweep name =>
    match state.barriers.get? name with
    | none => state
    | some barrier =>
      if barrier.stage = .drained then
        { state with
          leases := state.leases.retain fun _ row => !old barrier.barrierEpoch barrier.ltmOnly row
          barriers := state.barriers.set name { barrier with stage := .yielded } }
      else state
  | .compensate name =>
    match state.barriers.get? name with
    | none => state
    | some barrier => (state.restore barrier).setBarrier name { barrier with compensated := true }
  -- the second phase of the account erasure; the chat row goes with the user's
  | .eraseAccount name =>
    match state.barriers.get? name with
    | none => state
    | some barrier =>
      if state.holds barrier then
        { state with
          account := false
          chat := none
          barriers := state.barriers.set name { barrier with completed := true } }
      else state
  -- the second phase of `delete_user_memories`
  | .clearMemories name =>
    match state.barriers.get? name with
    | none => state
    | some barrier =>
      if state.holds barrier then
        (state.unblock barrier.previousLtmEnabled).setBarrier name
          { barrier with completed := true }
      else state

/-- Rows as the migrations leave them: the generation of the chat row was drawn
from the sequence, and no barrier is under way. -/
structure Settled (state : Consent) : Prop where
  drawn : ∀ chat ∈ state.chat, chat.memoryEpoch ≤ state.sequence
  idle : ∀ name, state.barriers.get? name = none

end Consent

end BobbyBotique.Privacy
