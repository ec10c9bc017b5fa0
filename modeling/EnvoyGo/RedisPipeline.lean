import EnvoyGo.RedisReplies

/-!
One downstream connection of the Redis proxy: commands pipelined on it, and the replies that the
client reads back from the bytes written.
-/

namespace EnvoyGo.Redis

open EnvoyGo.Readers EnvoyGo.Text

/-- The bytes of one command array, with the request that the proxy reads from them. -/
structure Frame (st : Strings) where
  raw : List Char
  request : Request
  star : raw.head? = some '*'
  decodes : decodeArray st raw = .ok ⟨request, raw, []⟩

section Frames

theorem yields_checkBody {n : ℕ} (hn : n ≤ maxBulkLen) (body : List Char) :
    Yields (checkBody n body) (fun b => b.length ≤ maxBulkLen) := by
  rw [checkBody]
  split
  · apply yields_ret
    rw [List.length_take]
    omega
  · exact yields_fail _ _

theorem yields_readBulk : Yields readBulk (fun b => b.length ≤ maxBulkLen) := by
  refine yields_bind (yields_true (mapError unexpected readLine)) ?_
  intro header _
  rw [bulkOf.eq_def]
  split
  · split
    · rename_i n _
      by_cases hn : n < 0 ∨ maxBulkLen < n
      · rw [if_pos hn]
        exact yields_fail _ _
      · rw [if_neg hn]
        exact yields_bind (yields_true _) (fun body _ => yields_checkBody (by omega) body)
    · exact yields_fail _ _
  · exact yields_fail _ _

theorem yields_decodeArray (st : Strings) :
    Yields (decodeArray st)
      (fun req => req.args ≠ [] ∧ ∀ a ∈ req.args, a.length ≤ maxBulkLen) := by
  refine yields_bind (yields_true (mapError unexpected readLine)) ?_
  intro header _
  rw [requestOf]
  split
  · exact yields_fail _ _
  rename_i n _
  by_cases hn : n ≤ 0 ∨ maxArrayLen < n
  · rw [if_pos hn]
    exact yields_fail _ _
  rw [if_neg hn]
  refine yields_bind (yields_times yields_readBulk n.toNat) ?_
  rintro args ⟨hlen, hall⟩
  apply yields_ret
  refine ⟨?_, hall⟩
  intro hnil
  have hzero : args.length = 0 := congrArg List.length hnil
  omega

variable {st : Strings}

theorem Frame.args_ne_nil (f : Frame st) : f.request.args ≠ [] :=
  (yields_decodeArray st _ _ f.decodes).1

theorem Frame.length_le (f : Frame st) : ∀ a ∈ f.request.args, a.length ≤ maxBulkLen :=
  (yields_decodeArray st _ _ f.decodes).2

theorem Frame.decodeRequest_append (f : Frame st) (r : List Char) :
    decodeRequest st (f.raw ++ r) = .ok ⟨f.request, f.raw, r⟩ := by
  have harray := (framed_decodeArray st _ _ f.decodes).2 r
  obtain ⟨cs, hcs⟩ := List.head?_eq_some_iff.mp f.star
  show decodeRequest st (f.raw ++ r) = _
  rw [hcs, List.cons_append, decodeRequest, if_pos rfl, ← List.cons_append, ← hcs]
  exact harray

/-- The array of bulk strings that a client sends for a command. -/
def encodeCommand (args : List (List Char)) : List Char :=
  '*' :: formatInt args.length ++ ['\r', '\n'] ++ (args.map encodeBulk).flatten

theorem star_encodeCommand (args : List (List Char)) : (encodeCommand args).head? = some '*' := rfl

theorem decodeArray_encodeCommand (st : Strings) (args : List (List Char)) (hne : args ≠ [])
    (hlen : args.length ≤ maxArrayLen) (hall : ∀ a ∈ args, a.length ≤ maxBulkLen) :
    decodeArray st (encodeCommand args) =
      .ok ⟨⟨st.toUpper (args.headD []), args⟩, encodeCommand args, []⟩ := by
  have hmax : maxArrayLen = 1048576 := rfl
  have hpos : 0 < args.length := List.length_pos_of_ne_nil hne
  have hhead : '\n' ∉ '*' :: formatInt args.length := by
    rw [List.mem_cons]
    exact not_or.mpr ⟨by decide, newline_notMem_formatInt args.length⟩
  have hline := unexpected_readLine_append hhead (args.map encodeBulk).flatten
  have hargs := times_flatten encodeBulk args
    (fun a ha more => readBulk_append (hall a ha) more) []
  rw [List.append_nil] at hargs
  have hbody : requestOf st ('*' :: formatInt args.length) (args.map encodeBulk).flatten =
      .ok ⟨⟨st.toUpper (args.headD []), args⟩, (args.map encodeBulk).flatten, []⟩ := by
    rw [requestOf, List.drop_one, List.tail_cons, atoi_formatInt (by omega) (by omega)]
    simp only
    rw [if_neg (by omega), Int.toNat_natCast]
    exact bind_ret_of_ok hargs (fun args => (⟨st.toUpper (args.headD []), args⟩ : Request))
  have hbytes : encodeCommand args = '*' :: formatInt args.length ++
      '\r' :: '\n' :: (args.map encodeBulk).flatten := by
    rw [encodeCommand, List.append_assoc]
    rfl
  have hraw : encodeCommand args = ('*' :: formatInt args.length ++ ['\r', '\n']) ++
      (args.map encodeBulk).flatten := rfl
  rw [hbytes]
  refine (bind_then hline _ hbody).trans ?_
  rw [← hraw, hbytes]

def Frame.ofArgs (st : Strings) (args : List (List Char)) (hne : args ≠ [])
    (hlen : args.length ≤ maxArrayLen) (hall : ∀ a ∈ args, a.length ≤ maxBulkLen) : Frame st where
  raw := encodeCommand args
  request := ⟨st.toUpper (args.headD []), args⟩
  star := star_encodeCommand args
  decodes := decodeArray_encodeCommand st args hne hlen hall

end Frames

section Dispatch

variable (st : Strings) (now : Clock) (cmd : List Char) (args : List (List Char))

theorem classifyTable_cases :
    (classifyTable st cmd args).closeAfter = false ∧
    ((classifyTable st cmd args).action = .actProxy ∨
      ((classifyTable st cmd args).action = .actUnsupported ∧
        (classifyTable st cmd args).reply = unknownCommandError args) ∨
      ((classifyTable st cmd args).action = .actInvalid ∧
        (classifyTable st cmd args).reply = respInvalidRequest)) := by
  rw [classifyTable]
  split
  · exact ⟨rfl, Or.inr (Or.inl ⟨rfl, rfl⟩)⟩
  split
  · exact ⟨rfl, Or.inr (Or.inr ⟨rfl, rfl⟩)⟩
  · exact ⟨rfl, Or.inl rfl⟩

/-- A local reply is a fixed line, the echoed argument or the time. -/
def LocalReply (now : Clock) (args : List (List Char)) (w : List Char) : Prop :=
  w ∈ [respPong, respAuthNoPassword, respOK, respInvalidRequest, respHelloOptions, respNoProto] ∨
    (∃ b ∈ args, w = encodeBulk b) ∨ w = encodeTime now

def VerdictCases (v : CommandVerdict) : Prop :=
  v.action = .actProxy ∨
    (v.action = .actUnsupported ∧ v.reply = unknownCommandError args) ∨
    ((v.action = .actLocal ∨ v.action = .actInvalid) ∧ LocalReply now args v.reply)

theorem classifyTable_verdict : VerdictCases now args (classifyTable st cmd args) := by
  obtain ⟨-, h | h | ⟨ha, hr⟩⟩ := classifyTable_cases st cmd args
  · exact Or.inl h
  · exact Or.inr (Or.inl h)
  · exact Or.inr (Or.inr ⟨Or.inr ha, Or.inl (by rw [hr]; simp)⟩)

theorem classify_cases : VerdictCases now args (classify st now cmd args) := by
  have hfixed : ∀ (action : Action) (w : List Char) (q : Bool),
      (action = .actLocal ∨ action = .actInvalid) →
      w ∈ [respPong, respAuthNoPassword, respOK, respInvalidRequest, respHelloOptions,
        respNoProto] → VerdictCases now args { action := action, reply := w, closeAfter := q } :=
    fun _ _ _ ha hw => Or.inr (Or.inr ⟨ha, Or.inl hw⟩)
  rw [classify]
  split
  · exact hfixed _ _ _ (Or.inl rfl) (by simp)
  split
  · exact hfixed _ _ _ (Or.inl rfl) (by simp)
  split
  · split
    · rename_i _ hlen
      have hmem : args.getD 1 [] ∈ args := by
        obtain ⟨a, b, rfl⟩ := List.length_eq_two.mp hlen
        exact List.mem_cons_of_mem a List.mem_cons_self
      exact Or.inr (Or.inr ⟨Or.inl rfl, Or.inr (Or.inl ⟨_, hmem, rfl⟩)⟩)
    · exact hfixed _ _ _ (Or.inr rfl) (by simp)
  split
  · exact Or.inr (Or.inr ⟨Or.inl rfl, Or.inr (Or.inr rfl)⟩)
  split
  · exact hfixed _ _ _ (Or.inl rfl) (by simp)
  split
  · rw [classifyHello]
    split
    · exact hfixed _ _ _ (Or.inl rfl) (by simp)
    split
    · exact hfixed _ _ _ (Or.inl rfl) (by simp)
    · exact classifyTable_verdict st now cmd args
  · exact classifyTable_verdict st now cmd args

theorem classify_closeAfter :
    (classify st now cmd args).closeAfter = decide (cmd = "QUIT".toList) := by
  have htable := (classifyTable_cases st cmd args).1
  by_cases hquit : cmd = "QUIT".toList
  · subst hquit
    rfl
  rw [decide_eq_false hquit, classify]
  split
  · rfl
  split
  · rfl
  split
  · split
    · rfl
    · rfl
  split
  · rfl
  split
  · rw [classifyHello]
    split
    · rfl
    split
    · rfl
    · exact htable
  · exact htable

theorem classify_quit (h : cmd = "QUIT".toList) :
    (classify st now cmd args).action = .actLocal := by
  subst h
  rfl

theorem classify_action_clock (now' : Clock) :
    (classify st now cmd args).action = (classify st now' cmd args).action := by
  rw [classify, classify]
  by_cases htime : cmd = "TIME".toList
  · rw [if_pos htime, if_pos htime]
    split
    · rfl
    split
    · rfl
    split
    · rfl
    · rfl
  · rw [if_neg htime, if_neg htime]

end Dispatch

/-- Every command it is sent, the upstream answers with one reply. -/
structure Upstream.Answering (u : Upstream) : Prop where
  resolves : u.resolves = true
  answers : ∀ sent raw, ∃ w, u.send sent raw = some w ∧ IsReply w

section Session

variable (env : Env)

def verdict (k : ℕ) (f : Frame env.strings) : CommandVerdict :=
  classify env.strings (env.clock k) f.request.cmd f.request.args

def replyTo (k : ℕ) (sent : List (List Char)) (f : Frame env.strings) : List Char :=
  if (verdict env k f).action = .actProxy then (env.upstream.send sent f.raw).getD []
  else (verdict env k f).reply

def sentAfter (k : ℕ) (sent : List (List Char)) (f : Frame env.strings) : List (List Char) :=
  if (verdict env k f).action = .actProxy then sent ++ [f.raw] else sent

/-- The replies to a list of commands, one for each of them. -/
def replies : ℕ → List (List Char) → List (Frame env.strings) → List (List Char)
  | _, _, [] => []
  | k, sent, f :: fs => replyTo env k sent f :: replies (k + 1) (sentAfter env k sent f) fs

theorem length_replies (k : ℕ) (sent : List (List Char)) (fs : List (Frame env.strings)) :
    (replies env k sent fs).length = fs.length := by
  induction fs generalizing k sent with
  | nil => rfl
  | cons f fs ih => rw [replies, List.length_cons, ih, List.length_cons]

end Session

section Pump

variable {env : Env}

theorem serveProxied_of_answer (hres : env.upstream.resolves = true) {s : Session}
    (hs : s.unread = []) {raw w : List Char} (hw : env.upstream.send s.sent raw = some w)
    (hreply : IsReply w) :
    serveProxied env s raw = (⟨s.sent ++ [raw], [], s.written ++ [w]⟩, true) := by
  have hread : decodeReply (s.unread ++ w) = .ok ⟨(), w, []⟩ := by
    rw [hs, List.nil_append]
    exact hreply
  simp only [serveProxied, if_pos hres, hw, hread]

theorem serveRequest_answered (hup : env.upstream.Answering) {s : Session} (hs : s.unread = [])
    (f : Frame env.strings) :
    serveRequest env s f.request f.raw =
      (⟨sentAfter env s.written.length s.sent f, [],
          s.written ++ [replyTo env s.written.length s.sent f]⟩,
        !decide (f.request.cmd = "QUIT".toList)) := by
  have hclose : (verdict env s.written.length f).closeAfter =
      decide (f.request.cmd = "QUIT".toList) := classify_closeAfter ..
  have hstays : (verdict env s.written.length f).action ≠ .actLocal →
      decide (f.request.cmd = "QUIT".toList) = false :=
    fun hne => decide_eq_false (fun hquit => hne (classify_quit _ _ _ _ hquit))
  have hlocal : (verdict env s.written.length f).action ≠ .actProxy →
      replyTo env s.written.length s.sent f = (verdict env s.written.length f).reply ∧
        sentAfter env s.written.length s.sent f = s.sent :=
    fun hne => ⟨if_neg hne, if_neg hne⟩
  have hverdict : classify env.strings (env.clock s.written.length) f.request.cmd f.request.args =
      verdict env s.written.length f := rfl
  unfold serveRequest
  dsimp only
  rw [hverdict]
  cases haction : (verdict env s.written.length f).action with
  | actLocal =>
    obtain ⟨hreply, hsent⟩ := hlocal (by rw [haction]; decide)
    rw [hreply, hsent, ← hs, hclose]
  | actUnsupported =>
    obtain ⟨hreply, hsent⟩ := hlocal (by rw [haction]; decide)
    rw [hreply, hsent, ← hs, hstays (by rw [haction]; decide)]
    rfl
  | actInvalid =>
    obtain ⟨hreply, hsent⟩ := hlocal (by rw [haction]; decide)
    rw [hreply, hsent, ← hs, hstays (by rw [haction]; decide)]
    rfl
  | actProxy =>
    obtain ⟨w, hw, hreply⟩ := hup.answers s.sent f.raw
    rw [replyTo, if_pos haction, sentAfter, if_pos haction, hw,
      hstays (by rw [haction]; decide)]
    exact serveProxied_of_answer hup.resolves hs hw hreply

/-- The commands up to the first `QUIT`, after which the proxy closes the connection. -/
def served {st : Strings} : List (Frame st) → List (Frame st)
  | [] => []
  | f :: fs => if f.request.cmd = "QUIT".toList then [f] else f :: served fs

/-- The bytes of commands sent one after the other. -/
def pipelined {st : Strings} (fs : List (Frame st)) : List Char := (fs.map Frame.raw).flatten

theorem written_pump (hup : env.upstream.Answering) (fs : List (Frame env.strings)) {s : Session}
    (hs : s.unread = []) :
    (pump env (pipelined fs) s).written =
      s.written ++ replies env s.written.length s.sent (served fs) := by
  induction fs generalizing s with
  | nil =>
    have hend : decodeRequest env.strings [] = .error .eof := rfl
    rw [pipelined, List.map_nil, List.flatten_nil, pump_of_error s hend, served, replies,
      List.append_nil]
  | cons f fs ih =>
    have hread : decodeRequest env.strings (pipelined (f :: fs)) =
        .ok ⟨f.request, f.raw, pipelined fs⟩ := by
      rw [pipelined, List.map_cons, List.flatten_cons]
      exact f.decodeRequest_append _
    rw [pump_of_ok s hread, serveRequest_answered hup hs f, served]
    by_cases hquit : f.request.cmd = "QUIT".toList
    · rw [decide_eq_true hquit, if_pos hquit]
      rfl
    · rw [decide_eq_false hquit, if_neg hquit, Bool.not_false, if_pos rfl, ih rfl]
      show s.written ++ [_] ++ replies env (s.written ++ [_]).length _ (served fs) = _
      rw [List.length_append, List.length_singleton, List.append_assoc]
      rfl

theorem handle_pipelined (hup : env.upstream.Answering) (fs : List (Frame env.strings)) :
    handle env (pipelined fs) = replies env 0 [] (served fs) := written_pump hup fs rfl

end Pump

section Alignment

/-- The command is answered with the unknown command error. -/
def Unsupported (st : Strings) (req : Request) : Prop :=
  (classify st ⟨0, 0⟩ req.cmd req.args).action = .actUnsupported

instance (st : Strings) (req : Request) : Decidable (Unsupported st req) :=
  inferInstanceAs (Decidable (_ = _))

/-- No byte of the request ends the line of the unknown command error. -/
def OneLine (req : Request) : Prop := ∀ a ∈ req.args, '\n' ∉ a

instance (req : Request) : Decidable (OneLine req) :=
  inferInstanceAs (Decidable (∀ a ∈ req.args, '\n' ∉ a))

variable {env : Env}

theorem LocalReply.isReply {now : Clock} {args : List (List Char)}
    (hargs : ∀ a ∈ args, a.length ≤ maxBulkLen) {w : List Char} (h : LocalReply now args w) :
    IsReply w := by
  rcases h with h | ⟨b, hb, rfl⟩ | rfl
  · exact isReply_of_mem w h
  · exact isReply_encodeBulk (hargs b hb)
  · exact isReply_encodeTime now

theorem isReply_replyTo_iff (hup : env.upstream.Answering) (k : ℕ) (sent : List (List Char))
    (f : Frame env.strings) :
    IsReply (replyTo env k sent f) ↔ (Unsupported env.strings f.request → OneLine f.request) := by
  have haction : Unsupported env.strings f.request ↔
      (verdict env k f).action = .actUnsupported := by
    rw [Unsupported, classify_action_clock _ _ _ _ (env.clock k)]
    exact Iff.rfl
  rw [haction, replyTo]
  rcases classify_cases env.strings (env.clock k) f.request.cmd f.request.args with
    hproxy | ⟨hunsupported, hreply⟩ | ⟨hlocal, hreply⟩
  · obtain ⟨w, hw, hw'⟩ := hup.answers sent f.raw
    have hproxy : (verdict env k f).action = .actProxy := hproxy
    rw [if_pos hproxy, hw, hproxy]
    exact ⟨(fun _ h => by cases h), fun _ => hw'⟩
  · have hunsupported : (verdict env k f).action = .actUnsupported := hunsupported
    have hreply : (verdict env k f).reply = unknownCommandError f.request.args := hreply
    rw [hunsupported, if_neg (by decide), hreply, isReply_unknownCommandError_iff f.args_ne_nil]
    exact ⟨fun h _ => h, fun h => h rfl⟩
  · have hone := hreply.isReply f.length_le
    have hne : (verdict env k f).action ≠ .actProxy ∧
        (verdict env k f).action ≠ .actUnsupported := by
      have hlocal : (verdict env k f).action = .actLocal ∨
        (verdict env k f).action = .actInvalid := hlocal
      rcases hlocal with h | h
      · rw [h]
        decide
      · rw [h]
        decide
    rw [if_neg hne.1]
    exact ⟨fun _ h => absurd h hne.2, fun _ => hone⟩

theorem isReply_replies_iff (hup : env.upstream.Answering) (fs : List (Frame env.strings)) (k : ℕ)
    (sent : List (List Char)) :
    (∀ w ∈ replies env k sent fs, IsReply w) ↔
      ∀ f ∈ fs, Unsupported env.strings f.request → OneLine f.request := by
  induction fs generalizing k sent with
  | nil =>
    exact ⟨fun _ f hf => absurd hf List.not_mem_nil,
      fun _ w hw => absurd hw List.not_mem_nil⟩
  | cons f fs ih =>
    rw [replies, List.forall_mem_cons, List.forall_mem_cons, ih, isReply_replyTo_iff hup]

theorem decodes_decodeReply_iff (ws : List (List Char)) :
    Decodes decodeReply ws.flatten ws ↔ ∀ w ∈ ws, IsReply w := by
  have hframed : Framed decodeReply := framed_decodeReplyInto maxReplyDepth
  rw [decodes_flatten_iff hframed]
  constructor
  · intro h w hw
    obtain ⟨⟨⟩, hv⟩ := h w hw
    exact hv
  · intro h w hw
    exact ⟨(), h w hw⟩

/-- The client reads one reply for each command it was served, in order, exactly when no
unsupported command among them has a newline in an argument. -/
theorem replies_aligned_iff (env : Env) (hup : env.upstream.Answering)
    (fs : List (Frame env.strings)) :
    (Decodes decodeReply (handle env (pipelined fs)).flatten (replies env 0 [] (served fs)) ∧
        (replies env 0 [] (served fs)).length = (served fs).length) ↔
      ∀ f ∈ served fs, Unsupported env.strings f.request → OneLine f.request := by
  rw [handle_pipelined hup, decodes_decodeReply_iff, isReply_replies_iff hup]
  exact and_iff_left (length_replies env 0 [] (served fs))

end Alignment

section Injection

def ascii : Strings where
  toUpper l := l.map Char.toUpper
  toLower l := l.map Char.toLower
  fields l := (Text.split ' ' l).filter (fun f => f ≠ [])

def okUpstream : Upstream := ⟨true, fun _ _ => some respOK⟩

def plainEnv : Env := ⟨ascii, fun _ => ⟨0, 0⟩, okUpstream⟩

theorem okUpstream_answering : okUpstream.Answering :=
  ⟨rfl, fun _ _ => ⟨respOK, rfl, isReply_of_mem respOK (by simp)⟩⟩

def ping : Frame plainEnv.strings :=
  .ofArgs ascii ["PING".toList] (by decide) (by decide) (by decide)

def getKey : Frame plainEnv.strings :=
  .ofArgs ascii ["GET".toList, "k".toList] (by decide) (by decide) (by decide)

def injected : Frame plainEnv.strings :=
  .ofArgs ascii ["X".toList, "\n+1".toList] (by decide) (by decide) (by decide)

theorem replies_aligned_iff_plain :
    Decodes decodeReply (handle plainEnv (pipelined [ping, getKey])).flatten
      ["+PONG\r\n".toList, "+OK\r\n".toList] := by
  have haligned := (replies_aligned_iff plainEnv okUpstream_answering [ping, getKey]).mpr
    (by decide +kernel)
  have hreplies : replies plainEnv 0 [] (served [ping, getKey]) =
      ["+PONG\r\n".toList, "+OK\r\n".toList] := by decide +kernel
  rw [hreplies] at haligned
  exact haligned.1

/-- Two commands, three replies: the second is the echoed argument. -/
theorem not_replies_aligned :
    okUpstream.Answering ∧ (served [injected, ping]).length = 2 ∧
      Decodes decodeReply (handle plainEnv (pipelined [injected, ping])).flatten
        ["-ERR unknown command 'X', with args beginning with: \n".toList, "+1\r\n".toList,
          "+PONG\r\n".toList] ∧
      ¬Decodes decodeReply (handle plainEnv (pipelined [injected, ping])).flatten
        (replies plainEnv 0 [] (served [injected, ping])) := by
  have hhandle : handle plainEnv (pipelined [injected, ping]) =
      replies plainEnv 0 [] (served [injected, ping]) :=
    handle_pipelined okUpstream_answering [injected, ping]
  have hbytes : (replies plainEnv 0 [] (served [injected, ping])).flatten =
      ["-ERR unknown command 'X', with args beginning with: \n".toList, "+1\r\n".toList,
        "+PONG\r\n".toList].flatten := by decide +kernel
  have hthree : ∀ w ∈ ["-ERR unknown command 'X', with args beginning with: \n".toList,
      "+1\r\n".toList, "+PONG\r\n".toList], IsReply w := by decide +kernel
  refine ⟨okUpstream_answering, by decide +kernel, ?_, ?_⟩
  · rw [hhandle, hbytes]
    exact (decodes_decodeReply_iff _).mpr hthree
  · rw [hhandle, decodes_decodeReply_iff, isReply_replies_iff okUpstream_answering]
    decide +kernel

end Injection

end EnvoyGo.Redis
