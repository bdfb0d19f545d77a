import BufferFabric.Lib.Word
import BufferFabric.Lib.Outcome

/-!
# Identities, bounds and status

The strong identities, the hard bounds and the checked arithmetic of `types.hpp`, and
the error codes of `status.hpp`.
-/

namespace BufferFabric

/-! ### Hard bounds -/

def kMaxPoolCount : ℕ := 4096
def kMaxQueueCount : ℕ := 1048576
def kMaxAllocationCount : ℕ := 4194304
def kMaxPolicyCount : ℕ := 4096
def kMaxSnapshotCount : ℕ := 65536
def kMaxPoolDepth : ℕ := 16
def kMaxUnitsPerPool : UInt64 := 1152921504606846976
def kMaxOvercommitUnits : UInt64 := 1152921504606846976
def kMaxAttemptMemory : ℕ := 65536
def kMaxAuthorityVectorEntries : ℕ := 16
def kMaxNameBytes : ℕ := 64
def kMaxJournalRecordBytes : ℕ := 4194304
def kMaxSnapshotBytes : ℕ := 268435456
def kMaxReclaimVictims : ℕ := 1048576
def kMaxLineageDepth : UInt32 := 32

/-! ### Strong identities -/

inductive IdTag where
  | pool | queue | tenant | trafficClass | resource | policy | allocation | backend
  | provenance | attempt | snapshot | generation | epoch
  deriving DecidableEq

structure StrongId (tag : IdTag) where
  raw : UInt64
  deriving DecidableEq

instance {tag : IdTag} : Inhabited (StrongId tag) := ⟨⟨0⟩⟩

namespace StrongId

variable {tag : IdTag}

def Valid (id : StrongId tag) : Prop := id.raw ≠ 0

instance (id : StrongId tag) : Decidable id.Valid :=
  inferInstanceAs (Decidable (id.raw ≠ 0))

@[simp] theorem valid_default : ¬(default : StrongId tag).Valid := by
  simp [Valid, default]

end StrongId

abbrev PoolId := StrongId .pool
abbrev QueueId := StrongId .queue
abbrev TenantId := StrongId .tenant
abbrev ClassId := StrongId .trafficClass
abbrev ResourceId := StrongId .resource
abbrev PolicyId := StrongId .policy
abbrev AllocationId := StrongId .allocation
abbrev BackendId := StrongId .backend
abbrev ProvenanceId := StrongId .provenance
abbrev AttemptId := StrongId .attempt
abbrev SnapshotId := StrongId .snapshot
abbrev Generation := StrongId .generation
abbrev EpochId := StrongId .epoch

abbrev Tick := UInt64

abbrev Name := List UInt8

structure BootIncarnation where
  hi : UInt64 := 0
  lo : UInt64 := 0
  deriving DecidableEq, Inhabited

structure Digest where
  hi : UInt64 := 0
  lo : UInt64 := 0
  deriving DecidableEq, Inhabited

/-! ### Checked arithmetic -/

def maxU64 : UInt64 := 18446744073709551615

/-- `add_overflow`: whether the wrapped sum is below its first summand. -/
def AddOverflow (a b : UInt64) : Prop := a + b < a

instance (a b : UInt64) : Decidable (AddOverflow a b) :=
  inferInstanceAs (Decidable (a + b < a))

def MulOverflow (a b : UInt64) : Prop := a ≠ 0 ∧ b > maxU64 / a

instance (a b : UInt64) : Decidable (MulOverflow a b) :=
  inferInstanceAs (Decidable (_ ∧ _))

def satAdd (a b : UInt64) : UInt64 :=
  if AddOverflow a b then maxU64 else a + b

def satMul (a b : UInt64) : UInt64 :=
  if MulOverflow a b then maxU64 else a * b

theorem addOverflow_iff {a b : UInt64} :
    AddOverflow a b ↔ 18446744073709551616 ≤ a.toNat + b.toNat :=
  Word.add_lt_self_iff

theorem toNat_add_of_not_overflow {a b : UInt64} (h : ¬AddOverflow a b) :
    (a + b).toNat = a.toNat + b.toNat := by
  rw [addOverflow_iff] at h
  exact Word.toNat_add (by omega)

theorem toNat_satAdd (a b : UInt64) :
    (satAdd a b).toNat = min (a.toNat + b.toNat) 18446744073709551615 := by
  unfold satAdd
  split
  · rename_i h
    rw [addOverflow_iff] at h
    change 18446744073709551615 = _
    omega
  · rename_i h
    rw [toNat_add_of_not_overflow h]
    rw [addOverflow_iff] at h
    omega

/-! ### Status -/

def isUnnamedCode (raw : UInt16) : Bool :=
  (15 ≤ raw && raw ≤ 19) || (33 ≤ raw && raw ≤ 39) || (49 ≤ raw && raw ≤ 59) ||
    (68 ≤ raw && raw ≤ 79) || (86 ≤ raw && raw ≤ 89) || (92 ≤ raw && raw ≤ 99)

inductive ErrorCode where
  | ok
  | invalidArgument | notFound | alreadyExists | noChange | nameTooLong
  | boundedResourceExhausted | overflow | underflow | unsupported | notImplemented
  | cancelled | shuttingDown | lifecycleViolation | wrongState
  | unknownPool | unknownQueue | unknownAllocation | unknownPolicy | unknownBackend
  | unknownResource | duplicatePool | duplicateAllocation | duplicatePolicy
  | duplicateQueue | poolCycle | poolDepthExceeded | duplicateName
  | capacityExceeded | protectedHeadroomViolation | overcommitLimitExceeded
  | borrowLimitExceeded | accountingViolation | invariantViolation | shareExceeded
  | hardLimitExceeded | policyForbids
  | staleGeneration | staleEpoch | staleAuthority | staleEvidence | evidenceUnknown
  | fenced | attemptConflict | epochRegression
  | persistenceError | corruptRecord | versionMismatch | integrityFailure
  | journalTruncated | snapshotOversized
  | backendError | backendNotReady
  | transportError | protocolViolation | oversizedMessage | truncatedMessage
  | peerClosed | protocolVersionMismatch
  /-- A number in the range of the codes that names none, as a record may hold it. -/
  | unnamed (raw : {raw : UInt16 // isUnnamedCode raw = true})
  deriving DecidableEq, Inhabited

def ErrorCode.toU16 : ErrorCode → UInt16
  | .ok => 0
  | .invalidArgument => 1
  | .notFound => 2
  | .alreadyExists => 3
  | .noChange => 4
  | .nameTooLong => 5
  | .boundedResourceExhausted => 6
  | .overflow => 7
  | .underflow => 8
  | .unsupported => 9
  | .notImplemented => 10
  | .cancelled => 11
  | .shuttingDown => 12
  | .lifecycleViolation => 13
  | .wrongState => 14
  | .unknownPool => 20
  | .unknownQueue => 21
  | .unknownAllocation => 22
  | .unknownPolicy => 23
  | .unknownBackend => 24
  | .unknownResource => 25
  | .duplicatePool => 26
  | .duplicateAllocation => 27
  | .duplicatePolicy => 28
  | .duplicateQueue => 29
  | .poolCycle => 30
  | .poolDepthExceeded => 31
  | .duplicateName => 32
  | .capacityExceeded => 40
  | .protectedHeadroomViolation => 41
  | .overcommitLimitExceeded => 42
  | .borrowLimitExceeded => 43
  | .accountingViolation => 44
  | .invariantViolation => 45
  | .shareExceeded => 46
  | .hardLimitExceeded => 47
  | .policyForbids => 48
  | .staleGeneration => 60
  | .staleEpoch => 61
  | .staleAuthority => 62
  | .staleEvidence => 63
  | .evidenceUnknown => 64
  | .fenced => 65
  | .attemptConflict => 66
  | .epochRegression => 67
  | .persistenceError => 80
  | .corruptRecord => 81
  | .versionMismatch => 82
  | .integrityFailure => 83
  | .journalTruncated => 84
  | .snapshotOversized => 85
  | .backendError => 90
  | .backendNotReady => 91
  | .transportError => 100
  | .protocolViolation => 101
  | .oversizedMessage => 102
  | .truncatedMessage => 103
  | .peerClosed => 104
  | .protocolVersionMismatch => 105
  | .unnamed raw => raw.val

/-- A failure: a code and a diagnostic message. Success is not a `Status` here but the
`ok` side of an `Except`. -/
structure Status where
  code : ErrorCode
  message : String
  deriving DecidableEq, Inhabited

/-- `is_valid_name`: 1 to 64 bytes, each a letter, a digit, `_`, `-` or `.`. -/
def isValidName (name : Name) : Bool :=
  !name.isEmpty && decide (name.length ≤ kMaxNameBytes) && name.all fun c ↦
    (97 ≤ c && c ≤ 122) || (65 ≤ c && c ≤ 90) || (48 ≤ c && c ≤ 57) ||
      c == 95 || c == 45 || c == 46

end BufferFabric
