import EnvoyGo.GoText
import EnvoyGo.Readers

/-!
The Redis proxy, `internal/filter/network/redisproxy`: the request and reply readers of
`resp.go`, the dispatch of `commands.go`, and the pump of `filter.go` over one downstream
connection.
-/

namespace EnvoyGo.Redis

open EnvoyGo.Readers EnvoyGo.Text

/-- What the package `strings` does with any text, Unicode tables included. -/
structure Strings where
  toUpper : List Char → List Char
  toLower : List Char → List Char
  fields : List Char → List (List Char)

inductive Err
  | eof
  | unexpectedEOF
  | protocol
deriving DecidableEq, Repr

def maxBulkLen : ℕ := 512*1024*1024

def maxArrayLen : ℕ := 1024*1024

def maxReplyDepth : ℕ := 128

def unexpected : Err → Err
  | .eof => .unexpectedEOF
  | e => e

def stripCR (line : List Char) : List Char :=
  if line.getLast? = some '\r' then line.dropLast else line

def readLine : Reader Char Err (List Char) :=
  bind (through .eof '\n') (fun line => ret (stripCR line))

/-- `strconv.Atoi`. -/
def atoi (s : List Char) : Option ℤ := Text.parseInt64 (String.ofList s)

def checkBody (n : ℕ) (body : List Char) : Reader Char Err (List Char) :=
  if body.drop n = ['\r', '\n'] then ret (body.take n) else fail .protocol

def readBody (n : ℕ) : Reader Char Err (List Char) :=
  bind (exactly .unexpectedEOF (n + 2)) (checkBody n)

def bulkOf : List Char → Reader Char Err (List Char)
  | '$' :: digits =>
    match atoi digits with
    | some n => if n < 0 ∨ maxBulkLen < n then fail .protocol else readBody n.toNat
    | none => fail .protocol
  | _ => fail .protocol

def readBulk : Reader Char Err (List Char) := bind (mapError unexpected readLine) bulkOf

def replyInteger (line : List Char) : Reader Char Err Unit :=
  if (atoi line).isSome then ret () else fail .protocol

def replyBulk (header : List Char) : Reader Char Err Unit :=
  match atoi header with
  | none => fail .protocol
  | some n =>
    if n = -1 then ret ()
    else if n < 0 ∨ maxBulkLen < n then fail .protocol
    else bind (readBody n.toNat) (fun _ => ret ())

def replyArray (element : Reader Char Err Unit) (header : List Char) : Reader Char Err Unit :=
  match atoi header with
  | none => fail .protocol
  | some n =>
    if n = -1 then ret ()
    else if n < 0 ∨ maxArrayLen < n then fail .protocol
    else bind (times element n.toNat) (fun _ => ret ())

/-- The switch of `decodeReplyInto` on the type byte; `element` reads the values of an array. -/
def decodeTyped (element : Reader Char Err Unit) (t : Char) : Reader Char Err Unit :=
  if t = '+' ∨ t = '-' then bind (mapError unexpected readLine) (fun _ => ret ())
  else if t = ':' then bind (mapError unexpected readLine) replyInteger
  else if t = '$' then bind (mapError unexpected readLine) replyBulk
  else if t = '*' then bind (mapError unexpected readLine) (replyArray element)
  else fail .protocol

def decodeReplyInto : ℕ → Reader Char Err Unit
  | 0 => fail .protocol
  | depth + 1 => bind (symbol .eof) (decodeTyped (decodeReplyInto depth))

/-- `decodeReply`. -/
def decodeReply : Reader Char Err Unit := decodeReplyInto maxReplyDepth

structure Request where
  cmd : List Char
  args : List (List Char)
deriving DecidableEq

def requestOf (st : Strings) (header : List Char) : Reader Char Err Request :=
  match atoi (header.drop 1) with
  | none => fail .protocol
  | some n =>
    if n ≤ 0 ∨ maxArrayLen < n then fail .protocol
    else
      bind (times readBulk n.toNat) (fun args => ret ⟨st.toUpper (args.headD []), args⟩)

def decodeArray (st : Strings) : Reader Char Err Request :=
  bind (mapError unexpected readLine) (requestOf st)

def decodeInline (st : Strings) : Reader Char Err Request :=
  bind (mapError unexpected readLine) (fun line =>
    match st.fields line with
    | [] => fail .protocol
    | field :: fields => ret ⟨st.toUpper field, field :: fields⟩)

/-- `decodeRequest`. -/
def decodeRequest (st : Strings) : Reader Char Err Request
  | [] => .error .eof
  | c :: r =>
    if c = '*' then decodeArray st (c :: r)
    else if c ∈ ['+', '-', ':', '$', '@'] then .error .protocol
    else decodeInline st (c :: r)

def supportedCommandList : List String := [
  "append", "bf.add", "bf.card", "bf.exists", "bf.info", "bf.insert", "bf.loadchunk",
  "bf.madd", "bf.mexists", "bf.reserve", "bf.scandump", "bitcount", "bitfield", "bitop",
  "bitpos", "cluster", "config", "copy", "decr", "decrby", "del", "discard", "dump",
  "eval", "evalsha", "exec", "exists", "expire", "expireat", "flushall", "flushdb",
  "geoadd", "geodist", "geohash", "geopos", "georadius", "georadius_ro", "georadiusbymember",
  "georadiusbymember_ro", "geosearch", "geosearchstore", "get", "getbit", "getdel", "getex",
  "getrange", "getset", "hdel", "hello", "hexists", "hget", "hgetall", "hincrby",
  "hincrbyfloat", "hkeys", "hlen", "hmget", "hmset", "hrandfield", "hscan", "hset", "hsetnx",
  "hstrlen", "hvals", "incr", "incrby", "incrbyfloat", "info", "info.shard", "keys", "lindex",
  "linsert", "llen", "lmove", "lpop", "lpos", "lpush", "lpushx", "lrange", "lrem", "lset",
  "ltrim", "mget", "mset", "msetnx", "multi", "object", "persist", "pexpire", "pexpireat",
  "pfadd", "pfcount", "pfmerge", "psetex", "pttl", "publish", "randomkey", "rename", "renamenx",
  "restore", "role", "rpop", "rpoplpush", "rpush", "rpushx", "sadd", "scan", "scard", "script",
  "sdiff", "sdiffstore", "select", "set", "setbit", "setex", "setnx", "setrange", "sinter",
  "sinterstore", "sismember", "slowlog", "smembers", "smismember", "smove", "sort", "sort_ro",
  "spop", "srandmember", "srem", "sscan", "strlen", "substr", "sunion", "sunionstore", "touch",
  "ttl", "type", "unlink", "unwatch", "watch", "xack", "xadd", "xautoclaim", "xclaim", "xdel",
  "xlen", "xpending", "xrange", "xrevrange", "xtrim", "zadd", "zcard", "zcount", "zdiff",
  "zdiffstore", "zincrby", "zinter", "zinterstore", "zlexcount", "zmscore", "zpopmax", "zpopmin",
  "zrandmember", "zrange", "zrangebylex", "zrangebyscore", "zrangestore", "zrank", "zrem",
  "zremrangebylex", "zremrangebyrank", "zremrangebyscore", "zrevrange", "zrevrangebylex",
  "zrevrangebyscore", "zrevrank", "zscan", "zscore", "zunion", "zunionstore"]

inductive Action
  | actProxy
  | actLocal
  | actUnsupported
  | actInvalid
deriving DecidableEq, Repr

structure CommandVerdict where
  action : Action
  reply : List Char := []
  closeAfter : Bool := false
  statCmd : List Char := []
deriving DecidableEq

def respPong : List Char := "+PONG\r\n".toList

def respAuthNoPassword : List Char := "-ERR Client sent AUTH, but no password is set\r\n".toList

def respOK : List Char := "+OK\r\n".toList

def respInvalidRequest : List Char := "-invalid request\r\n".toList

def respHelloOptions : List Char :=
  "-ERR HELLO options like AUTH and SETNAME are not supported\r\n".toList

def respNoProto : List Char := "-NOPROTO unsupported protocol version\r\n".toList

def commandsWithoutMandatoryArgs : List (List Char) := ["hello".toList]

def validArity (lc : List Char) (argc : ℕ) : Bool :=
  2 ≤ argc || commandsWithoutMandatoryArgs.contains lc

def encodeBulk (b : List Char) : List Char :=
  '$' :: formatInt b.length ++ ['\r', '\n'] ++ b ++ ['\r', '\n']

structure Clock where
  secs : Int64
  micros : Int64

def encodeTime (now : Clock) : List Char :=
  "*2\r\n".toList ++ encodeBulk (formatInt now.secs.toInt) ++
    encodeBulk (formatInt now.micros.toInt)

/-- `unknownCommandError`: the command and its arguments go into one error line as they came. -/
def unknownCommandError (args : List (List Char)) : List Char :=
  "-ERR unknown command '".toList ++ args.headD [] ++ "', with args beginning with: ".toList ++
    [',', ' '].intercalate args.tail ++ ['\r', '\n']

def classifyHello (args : List (List Char)) : Option CommandVerdict :=
  if 2 < args.length then some { action := .actLocal, reply := respHelloOptions }
  else if args.length = 2 ∧ args[1]? ≠ some ['2'] then
    some { action := .actLocal, reply := respNoProto }
  else none

def classifyTable (st : Strings) (cmd : List Char) (args : List (List Char)) : CommandVerdict :=
  let lc := st.toLower cmd
  if lc ∉ supportedCommandList.map String.toList then
    { action := .actUnsupported, reply := unknownCommandError args }
  else if ¬validArity lc args.length then
    { action := .actInvalid, reply := respInvalidRequest }
  else { action := .actProxy, statCmd := lc }

def classify (st : Strings) (now : Clock) (cmd : List Char) (args : List (List Char)) :
    CommandVerdict :=
  if cmd = "PING".toList then { action := .actLocal, reply := respPong }
  else if cmd = "AUTH".toList then { action := .actLocal, reply := respAuthNoPassword }
  else if cmd = "ECHO".toList then
    if args.length = 2 then { action := .actLocal, reply := encodeBulk (args.getD 1 []) }
    else { action := .actInvalid, reply := respInvalidRequest }
  else if cmd = "TIME".toList then { action := .actLocal, reply := encodeTime now }
  else if cmd = "QUIT".toList then { action := .actLocal, reply := respOK, closeAfter := true }
  else if cmd = "HELLO".toList then (classifyHello args).getD (classifyTable st cmd args)
  else classifyTable st cmd args

/-- The catch-all cluster as one connection sees it: whether it resolves, and what it sends back
on a frame, given the frames before it (`none` is a failed send). -/
structure Upstream where
  resolves : Bool
  send : List (List Char) → List Char → Option (List Char)

structure Session where
  sent : List (List Char) := []
  unread : List Char := []
  written : List (List Char) := []

structure Env where
  strings : Strings
  clock : ℕ → Clock
  upstream : Upstream

def serveProxied (env : Env) (s : Session) (raw : List Char) : Session × Bool :=
  if env.upstream.resolves then
    match env.upstream.send s.sent raw with
    | none => (s, false)
    | some answer =>
      match decodeReply (s.unread ++ answer) with
      | .error _ => ({ s with sent := s.sent ++ [raw], unread := [] }, false)
      | .ok x =>
        ({ sent := s.sent ++ [raw], unread := x.rest, written := s.written ++ [x.raw] }, true)
  else (s, false)

def serveRequest (env : Env) (s : Session) (req : Request) (raw : List Char) : Session × Bool :=
  let v := classify env.strings (env.clock s.written.length) req.cmd req.args
  match v.action with
  | .actLocal => ({ s with written := s.written ++ [v.reply] }, !v.closeAfter)
  | .actUnsupported => ({ s with written := s.written ++ [v.reply] }, true)
  | .actInvalid => ({ s with written := s.written ++ [v.reply] }, true)
  | .actProxy => serveProxied env s raw

section Readers

theorem framed_readLine : Framed readLine :=
  framed_bind (framed_through Err.eof '\n') (fun _ => framed_ret _)

theorem framed_readBody (n : ℕ) : Framed (readBody n) := by
  apply framed_bind (framed_exactly Err.unexpectedEOF (n + 2))
  intro body
  rw [checkBody]
  split
  · exact framed_ret _
  · exact framed_fail _

theorem framed_readBulk : Framed readBulk := by
  apply framed_bind (framed_mapError unexpected framed_readLine)
  intro header
  rw [bulkOf.eq_def]
  split
  · split
    · split
      · exact framed_fail _
      · exact framed_readBody _
    · exact framed_fail _
  · exact framed_fail _

theorem framed_decodeTyped {element : Reader Char Err Unit} (he : Framed element) (t : Char) :
    Framed (decodeTyped element t) := by
  have hline := framed_mapError unexpected framed_readLine
  rw [decodeTyped]
  split
  · exact framed_bind hline (fun _ => framed_ret _)
  split
  · apply framed_bind hline
    intro line
    rw [replyInteger]
    split
    · exact framed_ret _
    · exact framed_fail _
  split
  · apply framed_bind hline
    intro header
    rw [replyBulk]
    split
    · exact framed_fail _
    split
    · exact framed_ret _
    split
    · exact framed_fail _
    · exact framed_bind (framed_readBody _) (fun _ => framed_ret _)
  split
  · apply framed_bind hline
    intro header
    rw [replyArray]
    split
    · exact framed_fail _
    split
    · exact framed_ret _
    split
    · exact framed_fail _
    · exact framed_bind (framed_times he _) (fun _ => framed_ret _)
  · exact framed_fail _

theorem framed_decodeReplyInto (depth : ℕ) : Framed (decodeReplyInto depth) := by
  induction depth with
  | zero => exact framed_fail _
  | succ depth ih => exact framed_bind (framed_symbol Err.eof) (framed_decodeTyped ih)

theorem framed_decodeArray (st : Strings) : Framed (decodeArray st) := by
  apply framed_bind (framed_mapError unexpected framed_readLine)
  intro header
  rw [requestOf]
  split
  · exact framed_fail _
  split
  · exact framed_fail _
  · exact framed_bind (framed_times framed_readBulk _) (fun _ => framed_ret _)

theorem framed_decodeInline (st : Strings) : Framed (decodeInline st) := by
  apply framed_bind (framed_mapError unexpected framed_readLine)
  intro line
  split
  · exact framed_fail _
  · exact framed_ret _

theorem takes_readLine : Takes readLine :=
  takes_bind (takes_through Err.eof '\n') (fun line => ret (stripCR line))

theorem decodeRequest_rest_lt {st : Strings} {r : List Char} {x : Got Char Request}
    (h : decodeRequest st r = .ok x) : x.rest.length < r.length := by
  have htakes : Takes (mapError unexpected readLine) := takes_mapError unexpected takes_readLine
  cases r with
  | nil => cases h
  | cons c r =>
    rw [decodeRequest] at h
    by_cases hstar : c = '*'
    · rw [if_pos hstar] at h
      exact rest_lt (framed_decodeArray st) (takes_bind htakes _) h
    rw [if_neg hstar] at h
    by_cases hmark : c ∈ ['+', '-', ':', '$', '@']
    · rw [if_pos hmark] at h
      cases h
    · rw [if_neg hmark] at h
      exact rest_lt (framed_decodeInline st) (takes_bind htakes _) h

end Readers

def pump (env : Env) (r : List Char) (s : Session) : Session :=
  match _h : decodeRequest env.strings r with
  | .error _ => s
  | .ok x =>
    if (serveRequest env s x.value x.raw).2 then
      pump env x.rest (serveRequest env s x.value x.raw).1
    else (serveRequest env s x.value x.raw).1
termination_by r.length
decreasing_by exact decodeRequest_rest_lt _h

/-- What `Handle` writes downstream, write by write. -/
def handle (env : Env) (r : List Char) : List (List Char) := (pump env r {}).written

theorem pump_of_error {env : Env} {r : List Char} {e : Err} (s : Session)
    (h : decodeRequest env.strings r = .error e) : pump env r s = s := by
  rw [pump]
  split
  · rfl
  · rename_i x hx
    rw [h] at hx
    cases hx

theorem pump_of_ok {env : Env} {r : List Char} {x : Got Char Request} (s : Session)
    (h : decodeRequest env.strings r = .ok x) :
    pump env r s =
      if (serveRequest env s x.value x.raw).2 then
        pump env x.rest (serveRequest env s x.value x.raw).1
      else (serveRequest env s x.value x.raw).1 := by
  rw [pump]
  split
  · rename_i e he
    rw [h] at he
    cases he
  · rename_i y hy
    rw [h] at hy
    obtain rfl := Except.ok.inj hy
    rfl

end EnvoyGo.Redis
