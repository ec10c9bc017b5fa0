import EnvoyGo.FrameSniffer

/-!
The request decoder of the Kafka broker filter, `kafkabroker/codec.go`, with the tables of
`apikeys.go` and the counters of `stats.go`.
-/

namespace EnvoyGo.Kafka

open LengthPrefix FrameSniffer

structure ApiKeyEntry where
  key : ℤ
  root : String
  maxVersion : ℤ

def apiKeyTable : List ApiKeyEntry :=
  [⟨0, "produce", 11⟩, ⟨1, "fetch", 17⟩, ⟨2, "list_offsets", 9⟩, ⟨3, "metadata", 12⟩,
    ⟨4, "leader_and_isr", 7⟩, ⟨5, "stop_replica", 4⟩, ⟨6, "update_metadata", 8⟩,
    ⟨7, "controlled_shutdown", 3⟩, ⟨8, "offset_commit", 9⟩, ⟨9, "offset_fetch", 9⟩,
    ⟨10, "find_coordinator", 6⟩, ⟨11, "join_group", 9⟩, ⟨12, "heartbeat", 4⟩,
    ⟨13, "leave_group", 5⟩, ⟨14, "sync_group", 5⟩, ⟨15, "describe_groups", 6⟩,
    ⟨16, "list_groups", 5⟩, ⟨17, "sasl_handshake", 1⟩, ⟨18, "api_versions", 4⟩,
    ⟨19, "create_topics", 7⟩, ⟨20, "delete_topics", 6⟩, ⟨21, "delete_records", 2⟩,
    ⟨22, "init_producer_id", 5⟩, ⟨23, "offset_for_leader_epoch", 4⟩,
    ⟨24, "add_partitions_to_txn", 5⟩, ⟨25, "add_offsets_to_txn", 4⟩, ⟨26, "end_txn", 4⟩,
    ⟨27, "write_txn_markers", 1⟩, ⟨28, "txn_offset_commit", 4⟩, ⟨29, "describe_acls", 3⟩,
    ⟨30, "create_acls", 3⟩, ⟨31, "delete_acls", 3⟩, ⟨32, "describe_configs", 4⟩,
    ⟨33, "alter_configs", 2⟩, ⟨34, "alter_replica_log_dirs", 2⟩, ⟨35, "describe_log_dirs", 4⟩,
    ⟨36, "sasl_authenticate", 2⟩, ⟨37, "create_partitions", 3⟩,
    ⟨38, "create_delegation_token", 3⟩, ⟨39, "renew_delegation_token", 2⟩,
    ⟨40, "expire_delegation_token", 2⟩, ⟨41, "describe_delegation_token", 3⟩,
    ⟨42, "delete_groups", 2⟩, ⟨43, "elect_leaders", 2⟩, ⟨44, "incremental_alter_configs", 1⟩,
    ⟨45, "alter_partition_reassignments", 0⟩, ⟨46, "list_partition_reassignments", 0⟩,
    ⟨47, "offset_delete", 0⟩, ⟨48, "describe_client_quotas", 1⟩, ⟨49, "alter_client_quotas", 1⟩,
    ⟨50, "describe_user_scram_credentials", 0⟩, ⟨51, "alter_user_scram_credentials", 0⟩,
    ⟨52, "vote", 1⟩, ⟨53, "begin_quorum_epoch", 1⟩, ⟨54, "end_quorum_epoch", 1⟩,
    ⟨55, "describe_quorum", 2⟩, ⟨56, "alter_partition", 3⟩, ⟨57, "update_features", 1⟩,
    ⟨58, "envelope", 0⟩, ⟨59, "fetch_snapshot", 1⟩, ⟨60, "describe_cluster", 1⟩,
    ⟨61, "describe_producers", 0⟩, ⟨62, "broker_registration", 4⟩, ⟨63, "broker_heartbeat", 1⟩,
    ⟨64, "unregister_broker", 0⟩, ⟨65, "describe_transactions", 0⟩, ⟨66, "list_transactions", 1⟩,
    ⟨67, "allocate_producer_ids", 0⟩, ⟨68, "consumer_group_heartbeat", 0⟩,
    ⟨69, "consumer_group_describe", 0⟩, ⟨70, "controller_registration", 0⟩,
    ⟨73, "assign_replicas_to_dirs", 0⟩, ⟨74, "list_client_metrics_resources", 0⟩,
    ⟨75, "describe_topic_partitions", 0⟩, ⟨76, "share_group_heartbeat", 0⟩,
    ⟨77, "share_group_describe", 0⟩, ⟨78, "share_fetch", 0⟩, ⟨79, "share_acknowledge", 0⟩,
    ⟨80, "add_raft_voter", 0⟩, ⟨81, "remove_raft_voter", 0⟩, ⟨82, "update_raft_voter", 0⟩,
    ⟨83, "initialize_share_group_state", 0⟩, ⟨84, "read_share_group_state", 0⟩,
    ⟨85, "write_share_group_state", 0⟩, ⟨86, "delete_share_group_state", 0⟩,
    ⟨87, "read_share_group_state_summary", 0⟩]

def apiKeyByKey (key : ℤ) : Option ApiKeyEntry := apiKeyTable.find? fun e => e.key = key

def apiKeyName (key : ℤ) : Option String := (apiKeyByKey key).map ApiKeyEntry.root

def apiKeyMaxVersion (key : ℤ) : Option ℤ := (apiKeyByKey key).map ApiKeyEntry.maxVersion

def flexibleSince : List (ℤ × ℤ) :=
  [(0, 9), (1, 12), (2, 6), (3, 9), (4, 4), (5, 2), (6, 6), (7, 3), (8, 8), (9, 6), (10, 3),
    (11, 6), (12, 4), (13, 4), (14, 4), (15, 5), (16, 3), (18, 3), (19, 5), (20, 4), (21, 2),
    (22, 2), (23, 4), (24, 3), (25, 3), (26, 3), (27, 1), (28, 3), (29, 2), (30, 2), (31, 2),
    (32, 4), (33, 2), (34, 2), (35, 2), (36, 2), (37, 2), (38, 2), (39, 2), (40, 2), (41, 2),
    (42, 2), (43, 2), (44, 1), (45, 0), (46, 0), (48, 1), (49, 1), (50, 0), (51, 0), (52, 0),
    (53, 1), (54, 1), (55, 0), (56, 0), (57, 0), (58, 0), (59, 0), (60, 0), (61, 0), (62, 0),
    (63, 0), (64, 0), (65, 0), (66, 0), (67, 0), (68, 0), (69, 0), (70, 0), (73, 0), (74, 0),
    (75, 0), (76, 0), (77, 0), (78, 0), (79, 0), (80, 0), (81, 0), (82, 0), (83, 0), (84, 0),
    (85, 0), (86, 0), (87, 0)]

def requestUsesTaggedFieldsInHeader (key ver : ℤ) : Bool :=
  (flexibleSince.lookup key).any fun since => since ≤ ver

inductive ReadErr where
  | shortBuffer
  | malformed
  deriving DecidableEq

abbrev Reader (α : Type) := Bytes → Except ReadErr (α × Bytes)

def signedInt (width : ℕ) : Reader ℤ := fun r =>
  if r.length < width then .error .shortBuffer
  else .ok (signedBigEndian (r.take width), r.drop width)

def int16 : Reader ℤ := signedInt 2

def int32 : Reader ℤ := signedInt 4

def nullableString : Reader (Option Bytes) := fun r =>
  match int16 r with
  | .error e => .error e
  | .ok (l, r) =>
    if l = -1 then .ok (none, r)
    else if l < -1 then .error .malformed
    else if l > r.length then .error .malformed
    else .ok (some (r.take l.toNat), r.drop l.toNat)

def varintFrom : ℕ → ℕ → ℕ → Reader ℕ
  | _, _, _, [] => .error .shortBuffer
  | 0, _, _, _ :: _ => .error .malformed
  | left + 1, shift, v, b :: r =>
    let v := v ||| ((b.toNat % 128) <<< shift) % 2^32
    if b.toNat < 128 then .ok (v, r) else varintFrom left (shift + 7) v r

def unsignedVarint : Reader ℕ := varintFrom 5 0 0

def skipFields : ℕ → Reader Unit
  | 0, r => .ok ((), r)
  | count + 1, r =>
    match unsignedVarint r with
    | .error e => .error e
    | .ok (_, r) =>
      match unsignedVarint r with
      | .error e => .error e
      | .ok (size, r) =>
        if size > r.length then .error .malformed else skipFields count (r.drop size)

def skipTaggedFields : Reader Unit := fun r =>
  match unsignedVarint r with
  | .error e => .error e
  | .ok (count, r) => skipFields count r

structure RespSpec where
  apiKey : ℤ
  apiVersion : ℤ
  deriving DecidableEq

structure Requests where
  counters : Counters
  expected : ℤ → Option RespSpec := fun _ => none

namespace Requests

variable (d : Requests)

def inc (suffix : String) : Requests := { d with counters := d.counters.inc suffix }

def incRequest (root : String) : Requests := d.inc ("request." ++ root ++ "_request")

def incRequestUnknown : Requests := d.inc "request.unknown"

def incRequestFailure : Requests := d.inc "request.failure"

def register (corr key ver : ℤ) : Requests :=
  { d with expected := Function.update d.expected corr (some ⟨key, ver⟩) }

/-- A request whose header could be read. -/
def count (key ver : ℤ) : Requests :=
  match apiKeyName key, apiKeyMaxVersion key with
  | some root, some maxV => if ver > maxV then d.incRequestUnknown else d.incRequest root
  | _, _ => d.incRequestUnknown

def decodeRequestFrame (frame : Bytes) : Requests :=
  match int16 frame with
  | .error _ => d.incRequestFailure
  | .ok (key, r) =>
    match int16 r with
    | .error _ => d.incRequestFailure
    | .ok (ver, r) =>
      match int32 r with
      | .error _ => d.incRequestFailure
      | .ok (corr, r) =>
        let d := d.register corr key ver
        match nullableString r with
        | .error _ => d.incRequestFailure
        | .ok (_, r) =>
          if requestUsesTaggedFieldsInHeader key ver then
            match skipTaggedFields r with
            | .error _ => d.incRequestFailure
            | .ok _ => d.count key ver
          else d.count key ver

end Requests

def maxFrameLen : ℕ := 104857600

/-- A length out of bounds clears the buffer and counts nothing. -/
def protocol : Protocol Requests where
  bound := maxFrameLen
  decode d frame := .ok (d.decodeRequestFrame (frame.drop 4))
  outOfBounds d := d

/-- What a connection starts with. -/
def newDecoder (ks : Counters) : Requests := { counters := ks }

theorem accepts {b : Bytes} (h : protocol.InBounds b) : protocol.Accepts b :=
  ⟨h, fun _ _ _ _ hstop => by cases hstop⟩

end EnvoyGo.Kafka
