import Mathlib.Algebra.Group.Nat.Defs
import PathObservatory.Foundation.Error

/-! # Configured bounds and their hard ceilings -/
namespace PathObservatory

structure Limits where
  maxHopsPerPath : ℕ := 512
  maxPathsPerGeneration : ℕ := 65536
  maxGroupsPerGeneration : ℕ := 65536
  maxMembersPerGroup : ℕ := 64
  maxDevicesPerTopology : ℕ := 262144
  maxLinksPerTopology : ℕ := 1048576
  maxEvidencePerComparison : ℕ := 4096
  maxEvidencePerIngestBatch : ℕ := 8192
  maxEvidencePayloadBytes : ℕ := 4 * 1024 * 1024
  maxDocumentBytes : ℕ := 64 * 1024 * 1024
  maxJsonDepth : ℕ := 64
  maxJsonNodes : ℕ := 2000000
  maxStringBytes : ℕ := 1024 * 1024
  workerThreads : ℕ := 4
  maxWorkerThreads : ℕ := 64
  maxQueueDepth : ℕ := 16384
  maxTransportConnections : ℕ := 64
  maxFrameBytes : ℕ := 8 * 1024 * 1024
  maxConnectionsPerAccept : ℕ := 256
  maxHistoryRecords : ℕ := 65536
  maxHistoryPerGroup : ℕ := 1024
  historyWindowNanos : ℕ := 3600 * 1000000000
  maxFindings : ℕ := 65536
  maxFindingEvidence : ℕ := 512
  maxExportRecords : ℕ := 1000000
  maxStoreBytes : ℕ := 512 * 1024 * 1024
  maxStoreRecords : ℕ := 1000000
  maxStoreRecordBytes : ℕ := 16 * 1024 * 1024
  maxStoreSegments : ℕ := 8
deriving DecidableEq, Repr

namespace Limits

/-- The largest configuration the runtime accepts. -/
def hardCeiling : Limits where
  maxHopsPerPath := 4096
  maxPathsPerGeneration := 1000000
  maxGroupsPerGeneration := 1000000
  maxMembersPerGroup := 4096
  maxDevicesPerTopology := 1000000
  maxLinksPerTopology := 4000000
  maxEvidencePerComparison := 65536
  maxEvidencePerIngestBatch := 65536
  maxEvidencePayloadBytes := 64 * 1024 * 1024
  maxDocumentBytes := 512 * 1024 * 1024
  maxJsonDepth := 256
  maxJsonNodes := 20000000
  maxStringBytes := 16 * 1024 * 1024
  workerThreads := 256
  maxWorkerThreads := 256
  maxQueueDepth := 1048576
  maxTransportConnections := 1024
  maxFrameBytes := 128 * 1024 * 1024
  maxConnectionsPerAccept := 65536
  maxHistoryRecords := 10000000
  maxHistoryPerGroup := 1000000
  historyWindowNanos := 365 * 24 * 3600 * 1000000000
  maxFindings := 10000000
  maxFindingEvidence := 65536
  maxExportRecords := 10000000
  maxStoreBytes := 64 * 1024 * 1024 * 1024
  maxStoreRecords := 100000000
  maxStoreRecordBytes := 256 * 1024 * 1024
  maxStoreSegments := 64

/-- Compare one configured field against its hard ceiling. -/
def within (value ceiling : ℕ) (name : String) : Status :=
  require (value ≤ ceiling)
    { code := .outOfRange, message := "limit exceeds hard ceiling: " ++ name }

/-- Reject a configuration above a ceiling or inconsistent in itself. The
history window has a ceiling but no check. -/
def validate (l : Limits) : Status := do
  within l.maxHopsPerPath hardCeiling.maxHopsPerPath "max_hops_per_path"
  within l.maxPathsPerGeneration hardCeiling.maxPathsPerGeneration "max_paths_per_generation"
  within l.maxGroupsPerGeneration hardCeiling.maxGroupsPerGeneration "max_groups_per_generation"
  within l.maxMembersPerGroup hardCeiling.maxMembersPerGroup "max_members_per_group"
  within l.maxDevicesPerTopology hardCeiling.maxDevicesPerTopology "max_devices_per_topology"
  within l.maxLinksPerTopology hardCeiling.maxLinksPerTopology "max_links_per_topology"
  within l.maxEvidencePerComparison hardCeiling.maxEvidencePerComparison
    "max_evidence_per_comparison"
  within l.maxEvidencePerIngestBatch hardCeiling.maxEvidencePerIngestBatch
    "max_evidence_per_ingest_batch"
  within l.maxEvidencePayloadBytes hardCeiling.maxEvidencePayloadBytes
    "max_evidence_payload_bytes"
  within l.maxDocumentBytes hardCeiling.maxDocumentBytes "max_document_bytes"
  within l.maxJsonDepth hardCeiling.maxJsonDepth "max_json_depth"
  within l.maxJsonNodes hardCeiling.maxJsonNodes "max_json_nodes"
  within l.maxStringBytes hardCeiling.maxStringBytes "max_string_bytes"
  within l.workerThreads hardCeiling.workerThreads "worker_threads"
  within l.maxWorkerThreads hardCeiling.maxWorkerThreads "max_worker_threads"
  within l.maxQueueDepth hardCeiling.maxQueueDepth "max_queue_depth"
  within l.maxTransportConnections hardCeiling.maxTransportConnections
    "max_transport_connections"
  within l.maxFrameBytes hardCeiling.maxFrameBytes "max_frame_bytes"
  within l.maxConnectionsPerAccept hardCeiling.maxConnectionsPerAccept
    "max_connections_per_accept"
  within l.maxHistoryRecords hardCeiling.maxHistoryRecords "max_history_records"
  within l.maxHistoryPerGroup hardCeiling.maxHistoryPerGroup "max_history_per_group"
  within l.maxFindings hardCeiling.maxFindings "max_findings"
  within l.maxFindingEvidence hardCeiling.maxFindingEvidence "max_finding_evidence"
  within l.maxExportRecords hardCeiling.maxExportRecords "max_export_records"
  within l.maxStoreBytes hardCeiling.maxStoreBytes "max_store_bytes"
  within l.maxStoreRecords hardCeiling.maxStoreRecords "max_store_records"
  within l.maxStoreRecordBytes hardCeiling.maxStoreRecordBytes "max_store_record_bytes"
  within l.maxStoreSegments hardCeiling.maxStoreSegments "max_store_segments"
  require (l.workerThreads ≠ 0)
    { code := .invalidArgument, message := "worker_threads must be at least one" }
  require (l.maxHistoryPerGroup ≤ l.maxHistoryRecords)
    { code := .invalidArgument,
      message := "max_history_per_group must not exceed max_history_records" }
  require (l.maxEvidencePerIngestBatch ≤ l.maxQueueDepth)
    { code := .invalidArgument,
      message := "max_evidence_per_ingest_batch must not exceed max_queue_depth" }

theorem within_bind_eq_ok {value ceiling : ℕ} {name : String} {rest : Unit → Status} :
    (within value ceiling name >>= rest) = .ok () ↔ value ≤ ceiling ∧ rest () = .ok () := by
  unfold within
  rw [require_bind_eq_ok, decide_eq_true_eq]

/-- The bounds the decoders use are words of 32 bits in the source. -/
structure Words (l : Limits) : Prop where
  hops : l.maxHopsPerPath < 2 ^ 32
  evidence : l.maxEvidencePerComparison < 2 ^ 32
  strings : l.maxStringBytes < 2 ^ 32
  findingEvidence : l.maxFindingEvidence < 2 ^ 32

/-- Accepted bounds fit the 32 bit counts and lengths of the encodings. -/
theorem lt_of_validate {l : Limits} (h : l.validate = .ok ()) :
    l.maxHopsPerPath < 2 ^ 32 ∧ l.maxEvidencePerComparison < 2 ^ 32 ∧
      l.maxStringBytes < 2 ^ 32 ∧ l.maxFindingEvidence < 2 ^ 32 ∧
      l.maxStoreRecordBytes < 2 ^ 32 := by
  unfold validate at h
  simp only [↓within_bind_eq_ok, hardCeiling] at h
  omega

theorem maxStoreRecords_lt_of_validate {l : Limits} (h : l.validate = .ok ()) :
    l.maxStoreRecords < 2 ^ 64 := by
  unfold validate at h
  simp only [↓within_bind_eq_ok, hardCeiling] at h
  omega

end Limits

end PathObservatory
