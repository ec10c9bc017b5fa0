import EnvoyGo.Slices

/-!
The parser of the TLS inspector: the server name and the protocols of a ClientHello.
-/

namespace EnvoyGo.TLSInspector

open Slices

structure Sniffed where
  sni : Bytes
  alpns : List Bytes
  deriving DecidableEq

/-- The loop of `parseServerName`; a loop that outruns its fuel counts as a fault. -/
def firstHostName : ℕ → Bytes → Checked (Option Bytes)
  | 0, _ => .error ⟨⟩
  | fuel + 1, list =>
    if list.length < 3 then .ok none else do
    let nameType ← index list 0
    let nameLen ← uint16 list 1
    if 3 + nameLen > list.length then .ok none else
    if nameType = 0 then do
      let name ← slice list 3 (3 + nameLen)
      .ok (some name)
    else do
      let rest ← slice list (3 + nameLen) list.length
      firstHostName fuel rest

def parseList {α : Type} (loop : ℕ → Bytes → Checked (Option α)) (buf : Bytes) :
    Checked (Option α) :=
  if buf.length < 2 then .ok none else do
  let listLen ← uint16 buf 0
  if 2 + listLen > buf.length then .ok none else do
  let list ← slice buf 2 (2 + listLen)
  loop (list.length + 1) list

def parseServerName (buf : Bytes) : Checked (Option Bytes) := parseList firstHostName buf

def protocolNames : ℕ → Bytes → List Bytes → Checked (Option (List Bytes))
  | 0, _, _ => .error ⟨⟩
  | fuel + 1, list, out =>
    if list.length < 1 then .ok (some out) else do
    let nameLen ← index list 0
    if 1 + nameLen.toNat > list.length then .ok none else do
    let name ← slice list 1 (1 + nameLen.toNat)
    let rest ← slice list (1 + nameLen.toNat) list.length
    protocolNames fuel rest (out ++ [name])

def parseALPN (buf : Bytes) : Checked (Option (List Bytes)) :=
  parseList (fun fuel list => protocolNames fuel list []) buf

def sniffExtension (typ : ℕ) (body : Bytes) (out : Sniffed) : Checked Sniffed :=
  if typ = 0x0000 then do
    let name ← parseServerName body
    .ok { out with sni := name.getD out.sni }
  else if typ = 0x0010 then do
    let al ← parseALPN body
    .ok { out with alpns := al.getD out.alpns }
  else .ok out

def sniffExtensions : ℕ → Bytes → Sniffed → Checked (Option Sniffed)
  | 0, _, _ => .error ⟨⟩
  | fuel + 1, exts, out =>
    if exts.length < 4 then .ok (some out) else do
    let typ ← uint16 exts 0
    let ln ← uint16 exts 2
    if 4 + ln > exts.length then .ok none else do
    let body ← slice exts 4 (4 + ln)
    let out ← sniffExtension typ body out
    let rest ← slice exts (4 + ln) exts.length
    sniffExtensions fuel rest out

def parseExtensionBlock (ch : Bytes) (off : ℕ) : Checked (Option Sniffed) :=
  if off + 2 > ch.length then .ok (some ⟨[], []⟩) else do -- no extensions block — valid
  let extLen ← uint16 ch off
  if off + 2 + extLen > ch.length then .ok none else do
  let exts ← slice ch (off + 2) (off + 2 + extLen)
  sniffExtensions (exts.length + 1) exts ⟨[], []⟩

/-- The body of the ClientHello: `legacy_version`, `random` and the three vectors are skipped. -/
def parseHelloBody (ch : Bytes) : Checked (Option Sniffed) :=
  if 0 + 2 + 32 + 1 > ch.length then .ok none else do
  let sidLen ← index ch 34
  let off := 35
  if off + sidLen.toNat + 2 > ch.length then .ok none else do
  let off := off + sidLen.toNat
  let csLen ← uint16 ch off
  let off := off + 2
  if off + csLen + 1 > ch.length then .ok none else do
  let off := off + csLen
  let cmLen ← index ch off
  let off := off + 1
  if off + cmLen.toNat + 2 > ch.length then .ok none else
  parseExtensionBlock ch (off + cmLen.toNat)

def parseHandshake (body : Bytes) : Checked (Option Sniffed) :=
  if body.length < 4 then .ok none else do
  let kind ← index body 0
  if kind ≠ 0x01 then .ok none else do
  let hsLen ← (slice body 1 4).map bigEndian
  if 4 + hsLen > body.length then .ok none else do
  let ch ← slice body 4 (4 + hsLen)
  parseHelloBody ch

/-- `none` stands for `ok = false`. -/
def parseClientHello (buf : Bytes) : Checked (Option Sniffed) :=
  if buf.length < 5 then .ok none else do
  let kind ← index buf 0
  if kind ≠ 0x16 then .ok none else do
  let recordLen ← uint16 buf 3
  if 5 + recordLen > buf.length then .ok none else do
  let body ← slice buf 5 (5 + recordLen)
  parseHandshake body

section Safe

theorem safe_firstHostName {fuel : ℕ} {list : Bytes} (hfuel : list.length < fuel) :
    Safe (firstHostName fuel list) := by
  induction fuel generalizing list with
  | zero => omega
  | succ fuel ih =>
    refine Safe.ite (fun _ => Safe.ok _) fun hlen => ?_
    refine (safe_index (by omega)).bind fun nameType _ => ?_
    refine (safe_uint16 (by omega)).bind fun nameLen _ => ?_
    refine Safe.ite (fun _ => Safe.ok _) fun hname => ?_
    refine Safe.ite (fun _ => ?_) fun _ => ?_
    · exact (safe_slice (by omega) (by omega)).bind fun name _ => Safe.ok _
    · refine (safe_slice (by omega) le_rfl).bind fun rest hrest => ih ?_
      have := length_of_slice hrest
      omega

theorem safe_protocolNames {fuel : ℕ} {list : Bytes} (out : List Bytes)
    (hfuel : list.length < fuel) : Safe (protocolNames fuel list out) := by
  induction fuel generalizing list out with
  | zero => omega
  | succ fuel ih =>
    refine Safe.ite (fun _ => Safe.ok _) fun hlen => ?_
    refine (safe_index (by omega)).bind fun nameLen _ => ?_
    refine Safe.ite (fun _ => Safe.ok _) fun hname => ?_
    refine (safe_slice (by omega) (by omega)).bind fun name _ => ?_
    refine (safe_slice (by omega) le_rfl).bind fun rest hrest => ih _ ?_
    have := length_of_slice hrest
    omega

theorem safe_parseList {α : Type} {loop : ℕ → Bytes → Checked (Option α)} (buf : Bytes)
    (hloop : ∀ list, Safe (loop (list.length + 1) list)) : Safe (parseList loop buf) := by
  refine Safe.ite (fun _ => Safe.ok _) fun hlen => ?_
  refine (safe_uint16 (by omega)).bind fun listLen _ => ?_
  refine Safe.ite (fun _ => Safe.ok _) fun hlist => ?_
  exact (safe_slice (by omega) (by omega)).bind fun list _ => hloop list

theorem safe_sniffExtension (typ : ℕ) (body : Bytes) (out : Sniffed) :
    Safe (sniffExtension typ body out) := by
  refine Safe.ite (fun _ => ?_) fun _ => Safe.ite (fun _ => ?_) fun _ => Safe.ok _
  · exact (safe_parseList body fun list => safe_firstHostName (Nat.lt_succ_self _)).bind
      fun name _ => Safe.ok _
  · exact (safe_parseList body fun list => safe_protocolNames [] (Nat.lt_succ_self _)).bind
      fun al _ => Safe.ok _

theorem safe_sniffExtensions {fuel : ℕ} {exts : Bytes} (out : Sniffed)
    (hfuel : exts.length < fuel) : Safe (sniffExtensions fuel exts out) := by
  induction fuel generalizing exts out with
  | zero => omega
  | succ fuel ih =>
    refine Safe.ite (fun _ => Safe.ok _) fun hlen => ?_
    refine (safe_uint16 (by omega)).bind fun typ _ => ?_
    refine (safe_uint16 (by omega)).bind fun ln _ => ?_
    refine Safe.ite (fun _ => Safe.ok _) fun hbody => ?_
    refine (safe_slice (by omega) (by omega)).bind fun body _ => ?_
    refine (safe_sniffExtension typ body out).bind fun out' _ => ?_
    refine (safe_slice (by omega) le_rfl).bind fun rest hrest => ih _ ?_
    have := length_of_slice hrest
    omega

theorem safe_parseExtensionBlock (ch : Bytes) (off : ℕ) : Safe (parseExtensionBlock ch off) := by
  refine Safe.ite (fun _ => Safe.ok _) fun hlen => ?_
  refine (safe_uint16 (by omega)).bind fun extLen _ => ?_
  refine Safe.ite (fun _ => Safe.ok _) fun hext => ?_
  exact (safe_slice (by omega) (by omega)).bind fun exts _ =>
    safe_sniffExtensions _ (Nat.lt_succ_self _)

theorem safe_parseHelloBody (ch : Bytes) : Safe (parseHelloBody ch) := by
  refine Safe.ite (fun _ => Safe.ok _) fun hlen => ?_
  refine (safe_index (by omega)).bind fun sidLen _ => ?_
  refine Safe.ite (fun _ => Safe.ok _) fun hsid => ?_
  refine (safe_uint16 (by omega)).bind fun csLen _ => ?_
  refine Safe.ite (fun _ => Safe.ok _) fun hcs => ?_
  refine (safe_index (by omega)).bind fun cmLen _ => ?_
  exact Safe.ite (fun _ => Safe.ok _) fun hcm => safe_parseExtensionBlock ch _

theorem safe_parseHandshake (body : Bytes) : Safe (parseHandshake body) := by
  refine Safe.ite (fun _ => Safe.ok _) fun hlen => ?_
  refine (safe_index (by omega)).bind fun kind _ => ?_
  refine Safe.ite (fun _ => Safe.ok _) fun hkind => ?_
  refine ((safe_slice (by omega) (by omega)).map _).bind fun hsLen _ => ?_
  refine Safe.ite (fun _ => Safe.ok _) fun hhs => ?_
  exact (safe_slice (by omega) (by omega)).bind fun ch _ => safe_parseHelloBody ch

theorem safe_parseClientHello (buf : Bytes) : Safe (parseClientHello buf) := by
  refine Safe.ite (fun _ => Safe.ok _) fun hlen => ?_
  refine (safe_index (by omega)).bind fun kind _ => ?_
  refine Safe.ite (fun _ => Safe.ok _) fun hkind => ?_
  refine (safe_uint16 (by omega)).bind fun recordLen _ => ?_
  refine Safe.ite (fun _ => Safe.ok _) fun hrecord => ?_
  exact (safe_slice (by omega) (by omega)).bind fun body _ => safe_parseHandshake body

end Safe

inductive Extension where
  | serverName (names : List (UInt8 × Bytes))
  | alpn (protocols : List Bytes)
  | other (typ : ℕ) (data : Bytes)
  deriving DecidableEq

def encodeName (name : UInt8 × Bytes) : Bytes := name.1 :: vec16 name.2

namespace Extension

def typ : Extension → ℕ
  | serverName _ => 0x0000
  | alpn _ => 0x0010
  | other typ _ => typ

def data : Extension → Bytes
  | serverName names => vec16 (names.flatMap encodeName)
  | alpn protocols => vec16 (protocols.flatMap vec8)
  | other _ data => data

def encode (e : Extension) : Bytes := be16 e.typ ++ vec16 e.data

/-- The vectors are no longer than their lengths can say, and an extension of another type does
not bear the number of one of the two. -/
def WellFormed : Extension → Prop
  | serverName names => (names.flatMap encodeName).length + 2 < 2^16
  | alpn protocols => (∀ p ∈ protocols, p.length < 2^8) ∧ (protocols.flatMap vec8).length + 2 < 2^16
  | other typ data => typ < 2^16 ∧ typ ≠ 0x0000 ∧ typ ≠ 0x0010 ∧ data.length < 2^16

instance : DecidablePred WellFormed
  | serverName names => inferInstanceAs (Decidable ((names.flatMap encodeName).length + 2 < 2^16))
  | alpn protocols => inferInstanceAs (Decidable
      ((∀ p ∈ protocols, p.length < 2^8) ∧ (protocols.flatMap vec8).length + 2 < 2^16))
  | other typ data => inferInstanceAs (Decidable
      (typ < 2^16 ∧ typ ≠ 0x0000 ∧ typ ≠ 0x0010 ∧ data.length < 2^16))

def hostName : Extension → Option Bytes
  | serverName names => (names.find? (fun name => name.1 = 0)).map Prod.snd
  | _ => none

def protocols : Extension → Option (List Bytes)
  | alpn protocols => some protocols
  | _ => none

end Extension

/-- A ClientHello in one record. -/
structure Hello where
  recordVersion : Bytes
  version : Bytes
  random : Bytes
  sessionId : Bytes
  cipherSuites : Bytes
  compressions : Bytes
  extensions : Option (List Extension)
  deriving DecidableEq

namespace Hello

def front (h : Hello) : Bytes :=
  h.version ++ h.random ++ vec8 h.sessionId ++ vec16 h.cipherSuites ++ vec8 h.compressions

def extensionBlock (h : Hello) : Bytes :=
  h.extensions.elim [] fun exts => vec16 (exts.flatMap Extension.encode)

def body (h : Hello) : Bytes := h.front ++ h.extensionBlock

def handshake (h : Hello) : Bytes := 0x01 :: vec24 h.body

def encode (h : Hello) : Bytes := 0x16 :: (h.recordVersion ++ vec16 h.handshake)

structure WellFormed (h : Hello) : Prop where
  recordVersion : h.recordVersion.length = 2
  version : h.version.length = 2
  random : h.random.length = 32
  sessionId : h.sessionId.length < 2^8
  cipherSuites : h.cipherSuites.length < 2^16
  compressions : h.compressions.length < 2^8
  extensions : ∀ exts ∈ h.extensions, (∀ e ∈ exts, e.WellFormed) ∧ (exts.map Extension.typ).Nodup
  handshake : h.handshake.length < 2^16

/-- The first host name and the protocols of the message. -/
def sniffed (h : Hello) : Sniffed where
  sni := ((h.extensions.getD []).findSome? Extension.hostName).getD []
  alpns := ((h.extensions.getD []).findSome? Extension.protocols).getD []

end Hello

section Complete

theorem firstHostName_cons {fuel : ℕ} {list name rest : Bytes} {nameType : UInt8}
    (h : list = nameType :: (be16 name.length ++ (name ++ rest))) (hname : name.length < 2^16) :
    firstHostName (fuel + 1) list =
      if nameType = 0 then .ok (some name) else firstHostName fuel rest := by
  have hlen : list.length = 3 + (name.length + rest.length) := by
    rw [h, List.length_cons, List.length_append, List.length_append, length_be16]
    omega
  have hfront : list = [nameType] ++ (be16 name.length ++ (name ++ rest)) := h
  have hsize : uint16 list 1 = .ok name.length := uint16_of_eq hfront rfl hname
  have hbody : list = (nameType :: be16 name.length) ++ (name ++ rest) := h
  have hread : slice list 3 (3 + name.length) = .ok name := slice_of_eq hbody rfl rfl
  have hall : list = (nameType :: be16 name.length ++ name) ++ rest := by
    rw [List.append_assoc, ← hbody]
  have hrest : slice list (3 + name.length) list.length = .ok rest :=
    slice_rest_of_eq hall (List.length_append.trans rfl)
  rw [firstHostName, if_neg (by omega), index_zero_of_eq h, ok_bind, hsize, ok_bind,
    if_neg (by omega), hread, ok_bind, hrest, ok_bind]

theorem firstHostName_flatMap {fuel : ℕ} (names : List (UInt8 × Bytes))
    (hfuel : (names.flatMap encodeName).length < fuel)
    (hsize : (names.flatMap encodeName).length < 2^16) :
    firstHostName fuel (names.flatMap encodeName) =
      .ok ((names.find? (fun name => name.1 = 0)).map Prod.snd) := by
  induction names generalizing fuel with
  | nil =>
    obtain ⟨fuel, rfl⟩ := Nat.exists_eq_add_one.mpr hfuel
    rfl
  | cons name names ih =>
    obtain ⟨fuel, rfl⟩ := Nat.exists_eq_add_one.mpr (Nat.zero_lt_of_lt hfuel)
    have hlist : (name :: names).flatMap encodeName =
        name.1 :: (be16 name.2.length ++ (name.2 ++ names.flatMap encodeName)) := by
      simp only [List.flatMap_cons, encodeName, vec16, List.cons_append, List.append_assoc]
    have hlen := congrArg List.length hlist
    rw [List.length_cons, List.length_append, List.length_append, length_be16] at hlen
    rw [firstHostName_cons hlist (by omega), ih (by omega) (by omega), List.find?_cons]
    by_cases hzero : name.1 = 0
    · simp only [hzero, if_true, decide_true, Option.map_some]
    · simp only [hzero, if_false, decide_false]

theorem protocolNames_cons {fuel : ℕ} {list name rest : Bytes} {out : List Bytes}
    (h : list = vec8 name ++ rest) (hname : name.length < 2^8) :
    protocolNames (fuel + 1) list out = protocolNames fuel rest (out ++ [name]) := by
  have hlen : list.length = 1 + (name.length + rest.length) := by
    rw [h, List.length_append, length_vec8]
    omega
  have hsize : (UInt8.ofNat name.length).toNat = name.length := by
    rw [toNat_ofNat_mod]
    omega
  have hbody : list = [UInt8.ofNat name.length] ++ (name ++ rest) := h
  have hread : slice list 1 (1 + name.length) = .ok name := slice_of_eq hbody rfl rfl
  have hrest : slice list (1 + name.length) list.length = .ok rest :=
    slice_rest_of_eq h ((length_vec8 name).trans (Nat.add_comm _ _))
  rw [protocolNames, if_neg (by omega), index_zero_of_eq h, ok_bind, hsize, if_neg (by omega),
    hread, ok_bind, hrest, ok_bind]

theorem protocolNames_flatMap {fuel : ℕ} {protocols : List Bytes} (out : List Bytes)
    (hfuel : (protocols.flatMap vec8).length < fuel) (hsize : ∀ p ∈ protocols, p.length < 2^8) :
    protocolNames fuel (protocols.flatMap vec8) out = .ok (some (out ++ protocols)) := by
  induction protocols generalizing fuel out with
  | nil =>
    obtain ⟨fuel, rfl⟩ := Nat.exists_eq_add_one.mpr hfuel
    rw [List.append_nil]
    rfl
  | cons p protocols ih =>
    obtain ⟨fuel, rfl⟩ := Nat.exists_eq_add_one.mpr (Nat.zero_lt_of_lt hfuel)
    rw [List.flatMap_cons, List.length_append, length_vec8] at hfuel
    rw [protocolNames_cons List.flatMap_cons (hsize p List.mem_cons_self), ih _ (by omega)
      (fun q hq => hsize q (List.mem_cons_of_mem p hq)), List.append_assoc, List.singleton_append]

theorem parseList_vec16 {α : Type} (loop : ℕ → Bytes → Checked (Option α)) {list : Bytes}
    (hsize : list.length < 2^16) : parseList loop (vec16 list) = loop (list.length + 1) list := by
  have hall : vec16 list = be16 list.length ++ (list ++ []) := by rw [List.append_nil, vec16]
  have hread : slice (vec16 list) 2 (2 + list.length) = .ok list := slice_of_eq hall rfl rfl
  have hlen := length_vec16 list
  rw [parseList, if_neg (by omega), uint16_zero_of_eq hall hsize, ok_bind, if_neg (by omega),
    hread, ok_bind]

namespace Extension

def sniff (out : Sniffed) (e : Extension) : Sniffed where
  sni := e.hostName.getD out.sni
  alpns := e.protocols.getD out.alpns

variable {e : Extension}

theorem WellFormed.typ_lt (h : e.WellFormed) : e.typ < 2^16 := by
  cases e with
  | serverName names => exact Nat.two_pow_pos 16
  | alpn protocols => change 16 < 2^16; omega
  | other typ data => exact h.1

theorem WellFormed.data_lt (h : e.WellFormed) : e.data.length < 2^16 := by
  cases e with
  | serverName names => exact lt_of_eq_of_lt (length_vec16 _) h
  | alpn protocols => exact lt_of_eq_of_lt (length_vec16 _) h.2
  | other typ data => exact h.2.2.2

theorem WellFormed.sniffExtension (h : e.WellFormed) (out : Sniffed) :
    sniffExtension e.typ e.data out = .ok (sniff out e) := by
  cases e with
  | serverName names =>
    have hsize : (names.flatMap encodeName).length < 2^16 := Nat.lt_of_add_right_lt h
    have hparse : parseServerName (data (serverName names)) = .ok (hostName (serverName names)) :=
      (parseList_vec16 firstHostName hsize).trans
        (firstHostName_flatMap names (Nat.lt_succ_self _) hsize)
    rw [TLSInspector.sniffExtension, typ, if_pos rfl, hparse, ok_bind]
    rfl
  | alpn protocols =>
    have hsize : (protocols.flatMap vec8).length < 2^16 := Nat.lt_of_add_right_lt h.2
    have hparse : parseALPN (data (alpn protocols)) = .ok (some protocols) :=
      (parseList_vec16 _ hsize).trans (protocolNames_flatMap [] (Nat.lt_succ_self _) h.1)
    rw [TLSInspector.sniffExtension, typ, if_neg (by decide), if_pos rfl, hparse, ok_bind]
    rfl
  | other typ data =>
    rw [TLSInspector.sniffExtension, Extension.typ, if_neg h.2.1, if_neg h.2.2.1]
    rfl

end Extension

theorem sniffExtensions_cons {fuel : ℕ} {exts rest : Bytes} {e : Extension} {out : Sniffed}
    (h : exts = e.encode ++ rest) (he : e.WellFormed) :
    sniffExtensions (fuel + 1) exts out = sniffExtensions fuel rest (e.sniff out) := by
  have hfront : exts = be16 e.typ ++ (be16 e.data.length ++ (e.data ++ rest)) := by
    simp only [h, Extension.encode, vec16, List.append_assoc]
  have hbody : exts = (be16 e.typ ++ be16 e.data.length) ++ (e.data ++ rest) := by
    rw [hfront, List.append_assoc]
  have hall : exts = (be16 e.typ ++ be16 e.data.length ++ e.data) ++ rest := by
    rw [List.append_assoc, ← hbody]
  have hlen : exts.length = 4 + (e.data.length + rest.length) := by
    rw [hfront, List.length_append, List.length_append, List.length_append, length_be16,
      length_be16]
    omega
  have hsize : uint16 exts 2 = .ok e.data.length := uint16_of_eq hfront rfl he.data_lt
  have hread : slice exts 4 (4 + e.data.length) = .ok e.data := slice_of_eq hbody rfl rfl
  have hrest : slice exts (4 + e.data.length) exts.length = .ok rest :=
    slice_rest_of_eq hall (List.length_append.trans rfl)
  rw [sniffExtensions, if_neg (by omega), uint16_zero_of_eq hfront he.typ_lt, ok_bind, hsize,
    ok_bind, if_neg (by omega), hread, ok_bind, he.sniffExtension, ok_bind, hrest, ok_bind]

theorem length_encode (e : Extension) : e.encode.length = 4 + e.data.length := by
  rw [Extension.encode, List.length_append, length_be16, length_vec16]
  omega

theorem sniffExtensions_flatMap {fuel : ℕ} {exts : List Extension} (out : Sniffed)
    (hfuel : (exts.flatMap Extension.encode).length < fuel) (hexts : ∀ e ∈ exts, e.WellFormed) :
    sniffExtensions fuel (exts.flatMap Extension.encode) out =
      .ok (some (exts.foldl Extension.sniff out)) := by
  induction exts generalizing fuel out with
  | nil =>
    obtain ⟨fuel, rfl⟩ := Nat.exists_eq_add_one.mpr hfuel
    rfl
  | cons e exts ih =>
    obtain ⟨fuel, rfl⟩ := Nat.exists_eq_add_one.mpr (Nat.zero_lt_of_lt hfuel)
    rw [List.flatMap_cons, List.length_append, length_encode] at hfuel
    rw [sniffExtensions_cons List.flatMap_cons (hexts e List.mem_cons_self), ih _ (by omega)
      (fun f hf => hexts f (List.mem_cons_of_mem e hf)), List.foldl_cons]

theorem foldl_sniff {exts : List Extension} (hnodup : (exts.map Extension.typ).Nodup)
    (out : Sniffed) : exts.foldl Extension.sniff out =
      ⟨(exts.findSome? Extension.hostName).getD out.sni,
        (exts.findSome? Extension.protocols).getD out.alpns⟩ := by
  induction exts generalizing out with
  | nil => rfl
  | cons e exts ih =>
    obtain ⟨hnew, hnodup⟩ := List.nodup_cons.mp hnodup
    have hother {f : Extension} (hf : f ∈ exts) : f.typ ≠ e.typ := fun heq =>
      hnew (heq ▸ List.mem_map_of_mem hf)
    rw [List.foldl_cons, ih hnodup, List.findSome?_cons, List.findSome?_cons]
    cases e with
    | serverName names =>
      have hnone : exts.findSome? Extension.hostName = none :=
        List.findSome?_eq_none_iff.mpr fun f hf => by
          cases f with
          | serverName others => exact (hother hf rfl).elim
          | alpn protocols => rfl
          | other typ data => rfl
      cases hname : Extension.hostName (.serverName names) with
      | none => simp only [Extension.sniff, hname, Extension.protocols, Option.getD_none]
      | some name =>
        simp only [Extension.sniff, hname, hnone, Extension.protocols, Option.getD_none,
          Option.getD_some]
    | alpn protocols =>
      have hnone : exts.findSome? Extension.protocols = none :=
        List.findSome?_eq_none_iff.mpr fun f hf => by
          cases f with
          | alpn others => exact (hother hf rfl).elim
          | serverName names => rfl
          | other typ data => rfl
      simp only [Extension.sniff, hnone, Extension.hostName, Extension.protocols, Option.getD_none,
        Option.getD_some]
    | other typ data =>
      simp only [Extension.sniff, Extension.hostName, Extension.protocols, Option.getD_none]

namespace Hello.WellFormed

variable {h : Hello}

theorem parseHelloBody_front (hw : h.WellFormed) (tail : Bytes) :
    parseHelloBody (h.front ++ tail) =
      if tail.length < 2 then .ok none
      else parseExtensionBlock (h.front ++ tail) h.front.length := by
  obtain ⟨ch, hch⟩ : ∃ ch, h.front ++ tail = ch := ⟨_, rfl⟩
  have hskip : (h.version ++ h.random).length = 34 := by
    rw [List.length_append, hw.version, hw.random]
  have hsid : (UInt8.ofNat h.sessionId.length).toNat = h.sessionId.length := by
    have := hw.sessionId
    rw [toNat_ofNat_mod]
    omega
  have hcm : (UInt8.ofNat h.compressions.length).toNat = h.compressions.length := by
    have := hw.compressions
    rw [toNat_ofNat_mod]
    omega
  have hfront : h.front.length =
      34 + 1 + h.sessionId.length + 2 + h.cipherSuites.length + 1 + h.compressions.length := by
    simp only [Hello.front, List.length_append, length_vec8, length_vec16, hw.version, hw.random]
    omega
  have hlen : ch.length = h.front.length + tail.length := by rw [← hch, List.length_append]
  have hat34 : index ch 34 = .ok (UInt8.ofNat h.sessionId.length) := by
    refine index_of_eq (?_ : ch = (h.version ++ h.random) ++ _ :: (h.sessionId ++
      (vec16 h.cipherSuites ++ (vec8 h.compressions ++ tail)))) hskip
    simp only [← hch, Hello.front, vec8, List.append_assoc, List.cons_append]
  have hsuites : uint16 ch (35 + h.sessionId.length) = .ok h.cipherSuites.length := by
    refine uint16_of_eq (?_ : ch = (h.version ++ h.random ++ vec8 h.sessionId) ++ (_ ++
      (h.cipherSuites ++ (vec8 h.compressions ++ tail)))) ?_ hw.cipherSuites
    · simp only [← hch, Hello.front, vec16, List.append_assoc]
    · rw [List.length_append, hskip, length_vec8]
      omega
  have hmethods : index ch (35 + h.sessionId.length + 2 + h.cipherSuites.length) =
      .ok (UInt8.ofNat h.compressions.length) := by
    refine index_of_eq (?_ : ch = (h.version ++ h.random ++ vec8 h.sessionId ++
      vec16 h.cipherSuites) ++ _ :: (h.compressions ++ tail)) ?_
    · simp only [← hch, Hello.front, vec8, List.append_assoc, List.cons_append]
    · rw [List.length_append, List.length_append, hskip, length_vec8, length_vec16]
      omega
  rw [hch, parseHelloBody, if_neg (by omega), hat34, ok_bind]
  dsimp only
  rw [hsid, if_neg (by omega), hsuites, ok_bind, if_neg (by omega), hmethods, ok_bind, hcm, hfront]
  by_cases htail : tail.length < 2
  · rw [if_pos (by omega), if_pos htail]
  · rw [if_neg (by omega), if_neg htail]

theorem parseExtensionBlock_front (hw : h.WellFormed) {exts : List Extension}
    (hexts : h.extensions = some exts) :
    parseExtensionBlock h.body h.front.length = .ok (some h.sniffed) := by
  obtain ⟨hall, hnodup⟩ := hw.extensions exts hexts
  have hblock : h.extensionBlock = vec16 (exts.flatMap Extension.encode) := by
    rw [Hello.extensionBlock, hexts, Option.elim_some]
  have hbody : h.body = h.front ++ (be16 (exts.flatMap Extension.encode).length ++
      exts.flatMap Extension.encode) := by
    rw [Hello.body, hblock, vec16]
  have hall' : h.body = (h.front ++ be16 (exts.flatMap Extension.encode).length) ++
      (exts.flatMap Extension.encode ++ []) := by
    rw [List.append_nil, List.append_assoc, hbody]
  have hread : slice h.body (h.front.length + 2)
      (h.front.length + 2 + (exts.flatMap Extension.encode).length) =
        .ok (exts.flatMap Extension.encode) := slice_of_eq hall' List.length_append rfl
  have hlen := congrArg List.length hbody
  rw [List.length_append, List.length_append, length_be16] at hlen
  have hsize : (exts.flatMap Extension.encode).length < 2^16 := by
    have hall := hw.handshake
    change (be24 _ ++ h.body).length + 1 < 2^16 at hall
    rw [List.length_append] at hall
    omega
  rw [parseExtensionBlock, if_neg (by omega), uint16_of_eq hbody rfl hsize, ok_bind,
    if_neg (by omega), hread, ok_bind,
    sniffExtensions_flatMap _ (Nat.lt_succ_self _) hall, foldl_sniff hnodup, Hello.sniffed, hexts]
  rfl

theorem parseHelloBody_body (hw : h.WellFormed) : parseHelloBody h.body =
    .ok (if h.extensions.isSome then some h.sniffed else none) := by
  rw [Hello.body, hw.parseHelloBody_front]
  cases hexts : h.extensions with
  | none =>
    rw [Hello.extensionBlock, hexts]
    rfl
  | some exts =>
    have hblock : ¬h.extensionBlock.length < 2 := by
      rw [Hello.extensionBlock, hexts, Option.elim_some, length_vec16]
      omega
    rw [if_neg hblock]
    exact hw.parseExtensionBlock_front hexts

theorem parseHandshake_handshake (hw : h.WellFormed) :
    parseHandshake h.handshake = parseHelloBody h.body := by
  have hall := hw.handshake
  have hlen : h.handshake.length = 4 + h.body.length := by
    change (be24 _ ++ h.body).length + 1 = _
    rw [List.length_append]
    change 3 + h.body.length + 1 = 4 + h.body.length
    omega
  have hbytes : h.handshake = [0x01] ++ (be24 h.body.length ++ h.body) := rfl
  have hbody : h.handshake = (0x01 :: be24 h.body.length) ++ (h.body ++ []) := by
    rw [List.append_nil]
    rfl
  have hcode : slice h.handshake 1 4 = .ok (be24 h.body.length) := slice_of_eq hbytes rfl rfl
  have hsize : (slice h.handshake 1 4).map bigEndian = .ok h.body.length := by
    rw [hcode]
    exact congrArg Except.ok (bigEndian_be24 (by omega))
  have hread : slice h.handshake 4 (4 + h.body.length) = .ok h.body := slice_of_eq hbody rfl rfl
  rw [parseHandshake, if_neg (by omega), index_zero_of_eq hbytes, ok_bind, if_neg (by decide),
    hsize, ok_bind, if_neg (by omega), hread, ok_bind]

theorem parseClientHello_encode (hw : h.WellFormed) (rest : Bytes) :
    parseClientHello (h.encode ++ rest) =
      .ok (if h.extensions.isSome then some h.sniffed else none) := by
  obtain ⟨buf, hbuf⟩ : ∃ buf, h.encode ++ rest = buf := ⟨_, rfl⟩
  have hfront : buf = (0x16 :: h.recordVersion) ++ (be16 h.handshake.length ++
      (h.handshake ++ rest)) := by
    simp only [← hbuf, Hello.encode, vec16, List.cons_append, List.append_assoc]
  have hbody : buf = (0x16 :: h.recordVersion ++ be16 h.handshake.length) ++
      (h.handshake ++ rest) := by
    rw [List.append_assoc, ← hfront]
  have hthree : (0x16 :: h.recordVersion).length = 3 := congrArg (· + 1) hw.recordVersion
  have hlen : buf.length = 5 + h.handshake.length + rest.length := by
    rw [hbody, List.length_append, List.length_append, List.length_append, hthree, length_be16]
    omega
  have hread : slice buf 5 (5 + h.handshake.length) = .ok h.handshake :=
    slice_of_eq hbody (by rw [List.length_append, hthree, length_be16]) rfl
  rw [hbuf, parseClientHello, if_neg (by omega), index_zero_of_eq hfront, ok_bind,
    if_neg (by decide), uint16_of_eq hfront hthree hw.handshake, ok_bind, if_neg (by omega), hread,
    ok_bind, hw.parseHandshake_handshake, hw.parseHelloBody_body]

end Hello.WellFormed

end Complete

/-- No input is read out of range, and a ClientHello is parsed exactly when it has an extensions
block: the guard after the compression methods asks for two more bytes, which the branch for a
message without the block needs to be missing. -/
theorem parseClientHello_total (buf rest : Bytes) (h : Hello) (hw : h.WellFormed) :
    Safe (parseClientHello buf) ∧
    (parseClientHello (h.encode ++ rest) = .ok (some h.sniffed) ↔ h.extensions.isSome) := by
  refine ⟨safe_parseClientHello buf, ?_⟩
  rw [hw.parseClientHello_encode]
  cases h.extensions with
  | none => exact ⟨(fun heq => by cases heq), fun hsome => by cases hsome⟩
  | some exts => exact ⟨fun _ => rfl, fun _ => rfl⟩

/-- TLS 1.0 as it was first written: two cipher suites, no compression, nothing after. -/
def plainHello : Hello where
  recordVersion := [3, 1]
  version := [3, 1]
  random := List.replicate 32 7
  sessionId := []
  cipherSuites := [0x00, 0x2f, 0x00, 0x35]
  compressions := [0]
  extensions := none

theorem wellFormed_plainHello : plainHello.WellFormed :=
  ⟨rfl, rfl, rfl, by decide, by decide, by decide, (fun _ h => by cases h), by decide⟩

theorem parseClientHello_plainHello : plainHello.WellFormed ∧
    parseClientHello plainHello.encode = .ok none :=
  ⟨wellFormed_plainHello, by decide +kernel⟩

/-- The same message with two protocols, and a host name behind a name of another type. -/
def namedHello : Hello := { plainHello with
  extensions := some [.other 0x002b [2, 3, 4], .alpn [textBytes "h2", textBytes "http/1.1"],
    .serverName [(1, [9]), (0, textBytes "a.example")]] }

theorem wellFormed_namedHello : namedHello.WellFormed :=
  ⟨rfl, rfl, rfl, by decide, by decide, by decide,
    (fun _ h => by cases h; exact ⟨by decide +kernel, by decide +kernel⟩), by decide +kernel⟩

theorem parseClientHello_namedHello : namedHello.extensions.isSome ∧
    parseClientHello (namedHello.encode ++ [0x14]) =
      .ok (some ⟨textBytes "a.example", [textBytes "h2", textBytes "http/1.1"]⟩) :=
  ⟨rfl, (parseClientHello_total [] [0x14] namedHello wellFormed_namedHello).2.mpr rfl⟩

end EnvoyGo.TLSInspector
