import EnvoyGo.KafkaBroker
import EnvoyGo.ZooKeeperProxy

/-!
The request decoders of the Kafka and ZooKeeper filters over whole runs, against the same stream
appended at once.
-/

namespace EnvoyGo.FrameSniffer

open Network

/-- A run leaves the decoder as the same stream in one piece does, its counters, pending requests
and leftover bytes.  Kafka asks that all lengths be within bounds; ZooKeeper asks also that no frame
trigger a decode error, and panics in both cases or in neither. -/
theorem decoder_of_segments (ks rs : Counters) (cfg : ZooKeeper.Config) (es : List FeedEvent) :
    (Drained Kafka.protocol (Kafka.newDecoder ks) es →
      Kafka.protocol.InBounds (streamOf es) →
      ∃ d, afterRun Kafka.protocol (Kafka.newDecoder ks) es = some d ∧
        afterRun Kafka.protocol (Kafka.newDecoder ks) [.append (streamOf es)] = some d) ∧
    (Drained (ZooKeeper.protocol cfg) (ZooKeeper.newDecoder rs) es →
      (ZooKeeper.protocol cfg).InBounds (streamOf es) →
      ZooKeeper.FramesDecode cfg (streamOf es) →
      afterRun (ZooKeeper.protocol cfg) (ZooKeeper.newDecoder rs) es =
        afterRun (ZooKeeper.protocol cfg) (ZooKeeper.newDecoder rs) [.append (streamOf es)] ∧
      (cfg.maxPacketBytes + 4 < 2^31 →
        (afterRun (ZooKeeper.protocol cfg) (ZooKeeper.newDecoder rs) es).isSome)) := by
  constructor
  · intro hes hbounds
    have haccepts := Kafka.accepts hbounds
    have hsome := isSome_afterRun hes haccepts fun _ _ _ hpanic => by cases hpanic
    obtain ⟨d, hd⟩ := Option.isSome_iff_exists.mp hsome
    exact ⟨d, hd, (afterRun_eq_unsplit hes haccepts).symm.trans hd⟩
  · intro hes hbounds hdecode
    have haccepts := ZooKeeper.accepts hbounds hdecode
    refine ⟨afterRun_eq_unsplit hes haccepts, fun hmax => ?_⟩
    exact isSome_afterRun hes haccepts (ZooKeeper.decode_ne_panic hmax _)

/-- A metadata request, cut in its length, and the beginning of another one. -/
def metadataInPieces : List FeedEvent :=
  [.append [0, 0, 0], .onData, .drain 2,
    .append [10, 0, 3, 0, 1, 0, 0, 0, 7, 255, 255, 0, 0, 0, 10, 0], .onData, .drain 9]

/-- A ping, cut behind its length, and the beginning of another one. -/
def pingInPieces : List FeedEvent :=
  [.append [0, 0, 0, 8], .onData, .drain 4, .append [255, 255, 255], .append [254, 0], .onData,
    .append [0, 0, 11, 0, 0], .onData, .drain 7]

theorem decoder_of_segments_pieces :
    (∃ d, afterRun Kafka.protocol (Kafka.newDecoder fun _ => 0) metadataInPieces = some d ∧
      afterRun Kafka.protocol (Kafka.newDecoder fun _ => 0) [.append (streamOf metadataInPieces)] =
        some d) ∧
    (afterRun Kafka.protocol (Kafka.newDecoder fun _ => 0) metadataInPieces).map
      (fun d => (d.readBuf, d.state.counters "request.metadata_request", d.state.expected 7)) =
        some ([0, 0, 0, 10, 0], 1, some ⟨3, 1⟩) ∧
    (afterRun (ZooKeeper.protocol ⟨1048576, true, true⟩) (ZooKeeper.newDecoder fun _ => 0)
        pingInPieces =
      afterRun (ZooKeeper.protocol ⟨1048576, true, true⟩) (ZooKeeper.newDecoder fun _ => 0)
        [.append (streamOf pingInPieces)]) ∧
    (afterRun (ZooKeeper.protocol ⟨1048576, true, true⟩) (ZooKeeper.newDecoder fun _ => 0)
        pingInPieces).map
      (fun d => (d.readBuf, d.state.counters "ping_rq_bytes", d.state.controlRequestsByXid (-2))) =
        some ([0, 0], 12, [⟨"ping", 11⟩]) := by
  have hkafka := (decoder_of_segments (fun _ => 0) (fun _ => 0) ⟨1048576, true, true⟩
    metadataInPieces).1
  have hzookeeper := (decoder_of_segments (fun _ => 0) (fun _ => 0) ⟨1048576, true, true⟩
    pingInPieces).2
  refine ⟨hkafka (by decide +kernel) (by decide +kernel), by decide +kernel, ?_, by decide +kernel⟩
  exact (hzookeeper (by decide +kernel) (by decide +kernel) (by decide +kernel)).1

end EnvoyGo.FrameSniffer
