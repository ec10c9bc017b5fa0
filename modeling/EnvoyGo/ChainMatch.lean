import EnvoyGo.HTTPHeader
import EnvoyGo.RunningBest
import Mathlib.Data.Prod.Lex
import Mathlib.Order.OrderDual

/-!
The choice of a filter chain for a connection: which chains are eligible, how specific they are, and
the loop that keeps the best one.
-/

namespace EnvoyGo.ChainMatch

open RunningBest

/-- An address as `net.IP` holds it: no bytes for nil, 4, or 16. -/
abbrev IP := Bytes

def to4 (ip : IP) : Option IP :=
  if ip.length = 4 then some ip
  else if ip.length = 16 ∧ ip.take 12 = [0, 0, 0, 0, 0, 0, 0, 0, 0, 0, 255, 255] then
    some (ip.drop 12)
  else none

structure IPNet where
  ip : IP
  mask : Bytes
  deriving DecidableEq

def IPNet.networkNumberAndMask (n : IPNet) : Option (IP × Bytes) :=
  let ip := (to4 n.ip).getD n.ip
  if (to4 n.ip).isNone ∧ ip.length ≠ 16 then none
  else if n.mask.length = 4 then if ip.length = 4 then some (ip, n.mask) else none
  else if n.mask.length = 16 then
    if ip.length = 4 then some (ip, n.mask.drop 12) else some (ip, n.mask)
  else none

def masked (ip mask : Bytes) : Bytes := List.zipWith (fun b m => b &&& m) ip mask

def IPNet.contains (n : IPNet) (ip : IP) : Bool :=
  let x := (to4 ip).getD ip
  match n.networkNumberAndMask with
  | none => decide (x.length = 0)
  | some (number, mask) =>
    decide (x.length = number.length ∧ masked number mask = masked x mask)

def maskBits (mask : Bytes) : List Bool :=
  mask.flatMap (fun b => (List.range 8).map (fun i => b.toNat.testBit (7 - i)))

/-- The first result of `Mask.Size`: the length of a mask of ones and then zeros, 0 for another. -/
def maskOnes (mask : Bytes) : ℕ :=
  let ones := ((maskBits mask).takeWhile id).length
  if ((maskBits mask).drop ones).any id then 0 else ones

def isLoopback (ip : IP) : Bool :=
  match to4 ip with
  | some v4 => decide (v4.head? = some 127)
  | none => decide (ip = [0, 0, 0, 0, 0, 0, 0, 0, 0, 0, 0, 0, 0, 0, 0, 1])

structure Dimensions where
  destinationPort : ℕ := 0
  prefixRanges : List IPNet := []
  serverNames : List String := []
  transportProtocol : String := ""
  applicationProtocols : List String := []
  sourceTypeLocal : Bool := false
  sourceTypeExternal : Bool := false
  sourcePrefixRanges : List IPNet := []
  sourcePorts : List ℕ := []
  deriving DecidableEq

/-- One filter chain.  A chain counts as empty exactly when it sets nothing, as the parser of the
configuration leaves it. -/
structure ChainSpec extends Dimensions where
  name : String
  empty : Bool
  empty_iff : empty = true ↔ toDimensions = {}

/-- A chain as `parseChainSpec` leaves it. -/
def chainSpec (name : String) (d : Dimensions) : ChainSpec :=
  { d with name := name, empty := decide (d = {}), empty_iff := decide_eq_true_iff }

structure ChainMatchInputs where
  destinationIP : IP := []
  destinationPort : ℕ := 0
  sourceIP : IP := []
  sourcePort : ℕ := 0
  serverName : String := ""
  transportProtocol : String := ""
  applicationProtocols : List String := []
  deriving DecidableEq

def ChainMatchInputs.isLoopbackSource (inputs : ChainMatchInputs) : Bool :=
  !inputs.sourceIP.isEmpty && isLoopback inputs.sourceIP

inductive ChainError
  | noChainMatched
  | ambiguousChainMatch
  deriving DecidableEq

def ChainError.text : ChainError → String
  | .noChainMatched => "no filter_chain matches connection"
  | .ambiguousChainMatch => "ambiguous filter_chain selection"

def ipInAny (ip : IP) (cidrs : List IPNet) : Bool :=
  if ip.isEmpty then false else cidrs.any (fun c => c.contains ip)

def portInAny (p : ℕ) (ports : List ℕ) : Bool := ports.any (fun q => p == q)

def alpnMatchAny (want offered : List String) : Bool :=
  want.any (fun w => offered.any (fun o => w == o))

def longestPrefix (ip : IP) (cidrs : List IPNet) : ℕ :=
  cidrs.foldl (fun best c =>
    if c.contains ip then (if maskOnes c.mask > best then maskOnes c.mask else best) else best) 0

def suffixMatches (p sni : String) : Bool :=
  hasPrefix p "*." && (p.toList.drop 1).isSuffixOf sni.toList

def sniMatchAny (patterns : List String) (sni : String) : Bool :=
  patterns.any (fun p => p == "*" || p == sni || suffixMatches p sni)

def sniMatchedRankFrom (sni : String) : ℕ → ℕ → List String → ℕ × ℕ
  | rank, suffix, [] => (rank, suffix)
  | rank, suffix, p :: ps =>
    if p == sni then (0, 0)
    else if p == "*" then sniMatchedRankFrom sni (if rank > 2 then 2 else rank) suffix ps
    else if suffixMatches p sni then
      let n := p.utf8ByteSize - 1
      sniMatchedRankFrom sni 1 (if n > suffix then n else suffix) ps
    else sniMatchedRankFrom sni rank suffix ps

/-- The rank of the pattern that matches the name, lower for a more specific one, and the length of
the longest suffix. -/
def sniMatchedRank (patterns : List String) (sni : String) : ℕ × ℕ :=
  sniMatchedRankFrom sni 3 0 patterns

/-- Whether a chain takes the connection. -/
def matchesInputs (c : ChainSpec) (inputs : ChainMatchInputs) : Bool :=
  if c.empty then true
  else if c.destinationPort ≠ 0 ∧ c.destinationPort ≠ inputs.destinationPort then false
  else if c.prefixRanges ≠ [] ∧ !ipInAny inputs.destinationIP c.prefixRanges then false
  else if c.serverNames ≠ [] ∧ !sniMatchAny c.serverNames inputs.serverName then false
  else if c.transportProtocol ≠ "" ∧ c.transportProtocol ≠ inputs.transportProtocol then false
  else if c.applicationProtocols ≠ [] ∧
      !alpnMatchAny c.applicationProtocols inputs.applicationProtocols then false
  else if c.sourceTypeLocal && !inputs.isLoopbackSource then false
  else if c.sourceTypeExternal && inputs.isLoopbackSource then false
  else if c.sourcePrefixRanges ≠ [] ∧ !ipInAny inputs.sourceIP c.sourcePrefixRanges then false
  else if c.sourcePorts ≠ [] ∧ !portInAny inputs.sourcePort c.sourcePorts then false
  else true

def specificityScore (c : ChainSpec) : ℕ :=
  if c.empty then 0
  else
    (if c.destinationPort ≠ 0 then 2^7 else 0) + (if c.prefixRanges ≠ [] then 2^6 else 0) +
    (if c.serverNames ≠ [] then 2^5 else 0) + (if c.transportProtocol ≠ "" then 2^4 else 0) +
    (if c.applicationProtocols ≠ [] then 2^3 else 0) +
    (if c.sourceTypeLocal || c.sourceTypeExternal then 2^2 else 0) +
    (if c.sourcePrefixRanges ≠ [] then 2^1 else 0) + (if c.sourcePorts ≠ [] then 2^0 else 0)

/-- The comparison of two chains of one score; `none` where they cannot be told apart. -/
def breakTie (a b : ChainSpec) (inputs : ChainMatchInputs) : Option ChainSpec :=
  let bySource : Option ChainSpec :=
    if a.sourcePrefixRanges ≠ [] ∧ b.sourcePrefixRanges ≠ [] then
      let la := longestPrefix inputs.sourceIP a.sourcePrefixRanges
      let lb := longestPrefix inputs.sourceIP b.sourcePrefixRanges
      if la > lb then some a else if lb > la then some b else none
    else none
  let byName : Option ChainSpec :=
    if a.serverNames ≠ [] ∧ b.serverNames ≠ [] then
      let (ra, la) := sniMatchedRank a.serverNames inputs.serverName
      let (rb, lb) := sniMatchedRank b.serverNames inputs.serverName
      if ra < rb then some a
      else if rb < ra then some b
      else if la > lb then some a
      else if lb > la then some b
      else bySource
    else bySource
  if a.prefixRanges ≠ [] ∧ b.prefixRanges ≠ [] then
    let la := longestPrefix inputs.destinationIP a.prefixRanges
    let lb := longestPrefix inputs.destinationIP b.prefixRanges
    if la > lb then some a else if lb > la then some b else byName
  else byName

def selectBest (inputs : ChainMatchInputs) :
    ChainSpec → ℕ → List ChainSpec → Except ChainError ChainSpec
  | best, _, [] => .ok best
  | best, bestScore, c :: cs =>
    let cScore := specificityScore c
    if cScore > bestScore then selectBest inputs c cScore cs
    else if cScore = bestScore then
      match breakTie best c inputs with
      | none => .error .ambiguousChainMatch
      | some winner => selectBest inputs winner bestScore cs
    else selectBest inputs best bestScore cs

def selectChain (inputs : ChainMatchInputs) (chains : List ChainSpec)
    (defaultChain : Option ChainSpec) : Except ChainError ChainSpec :=
  match chains.filter (fun c => matchesInputs c inputs) with
  | [] =>
    match defaultChain with
    | some c => .ok c
    | none => .error .noChainMatched
  | best :: rest => selectBest inputs best (specificityScore best) rest

/-- The documented order: how specific the match is, then the destination's prefix, the rank and
the suffix of the server name, and the source's prefix. -/
abbrev Key := ℕ ×ₗ ℕ ×ₗ ℕᵒᵈ ×ₗ ℕ ×ₗ ℕ

def destinationLength (inputs : ChainMatchInputs) (c : ChainSpec) : ℕ :=
  if c.prefixRanges ≠ [] then longestPrefix inputs.destinationIP c.prefixRanges else 0

def nameRank (inputs : ChainMatchInputs) (c : ChainSpec) : ℕ × ℕ :=
  if c.serverNames ≠ [] then sniMatchedRank c.serverNames inputs.serverName else (0, 0)

def sourceLength (inputs : ChainMatchInputs) (c : ChainSpec) : ℕ :=
  if c.sourcePrefixRanges ≠ [] then longestPrefix inputs.sourceIP c.sourcePrefixRanges else 0

def key (inputs : ChainMatchInputs) (c : ChainSpec) : Key :=
  toLex (specificityScore c, toLex (destinationLength inputs c,
    toLex (OrderDual.toDual (nameRank inputs c).1,
      toLex ((nameRank inputs c).2, sourceLength inputs c))))

def bit (p : Prop) [Decidable p] : ℕ := if p then 1 else 0

theorem bit_le_one (p : Prop) [Decidable p] : bit p ≤ 1 := by
  unfold bit
  split_ifs <;> omega

theorem iff_of_bit_eq {p q : Prop} [Decidable p] [Decidable q] (h : bit p = bit q) : p ↔ q := by
  unfold bit at h
  split_ifs at h with hp hq hq
  · exact iff_of_true hp hq
  · exact iff_of_false hp hq

theorem specificityScore_eq (c : ChainSpec) : specificityScore c =
    bit (c.destinationPort ≠ 0) * 128 + bit (c.prefixRanges ≠ []) * 64 +
    bit (c.serverNames ≠ []) * 32 + bit (c.transportProtocol ≠ "") * 16 +
    bit (c.applicationProtocols ≠ []) * 8 +
    bit ((c.sourceTypeLocal || c.sourceTypeExternal) = true) * 4 +
    bit (c.sourcePrefixRanges ≠ []) * 2 + bit (c.sourcePorts ≠ []) := by
  have hbit (p : Prop) [Decidable p] (n : ℕ) : (if p then n else 0) = bit p * n := by
    unfold bit
    split_ifs <;> omega
  unfold specificityScore
  by_cases hempty : c.empty = true
  · have hzero := c.empty_iff.mp hempty
    rw [if_pos hempty, hzero]
    rfl
  · rw [if_neg hempty]
    simp only [hbit]
    omega

variable {a b : ChainSpec} {inputs : ChainMatchInputs} {chains : List ChainSpec}

theorem same_dimensions (h : specificityScore a = specificityScore b) :
    (a.prefixRanges ≠ [] ↔ b.prefixRanges ≠ []) ∧ (a.serverNames ≠ [] ↔ b.serverNames ≠ []) ∧
      (a.sourcePrefixRanges ≠ [] ↔ b.sourcePrefixRanges ≠ []) := by
  rw [specificityScore_eq, specificityScore_eq] at h
  have hsum (a7 a6 a5 a4 a3 a2 a1 a0 b7 b6 b5 b4 b3 b2 b1 b0 : ℕ) (ha7 : a7 ≤ 1) (ha6 : a6 ≤ 1)
      (ha5 : a5 ≤ 1) (ha4 : a4 ≤ 1) (ha3 : a3 ≤ 1) (ha2 : a2 ≤ 1) (ha1 : a1 ≤ 1) (ha0 : a0 ≤ 1)
      (hb7 : b7 ≤ 1) (hb6 : b6 ≤ 1) (hb5 : b5 ≤ 1) (hb4 : b4 ≤ 1) (hb3 : b3 ≤ 1) (hb2 : b2 ≤ 1)
      (hb1 : b1 ≤ 1) (hb0 : b0 ≤ 1)
      (heq : a7 * 128 + a6 * 64 + a5 * 32 + a4 * 16 + a3 * 8 + a2 * 4 + a1 * 2 + a0 =
        b7 * 128 + b6 * 64 + b5 * 32 + b4 * 16 + b3 * 8 + b2 * 4 + b1 * 2 + b0) :
      a6 = b6 ∧ a5 = b5 ∧ a1 = b1 := by
    omega
  have hbits := hsum _ _ _ _ _ _ _ _ _ _ _ _ _ _ _ _ (bit_le_one _) (bit_le_one _)
    (bit_le_one _) (bit_le_one _) (bit_le_one _) (bit_le_one _) (bit_le_one _) (bit_le_one _)
    (bit_le_one _) (bit_le_one _) (bit_le_one _) (bit_le_one _) (bit_le_one _) (bit_le_one _)
    (bit_le_one _) (bit_le_one _) h
  exact ⟨iff_of_bit_eq hbits.1, iff_of_bit_eq hbits.2.1, iff_of_bit_eq hbits.2.2⟩

def larger {α : Type} (m n : ℕ) (a b draw : Option α) : Option α :=
  if m > n then a else if n > m then b else draw

theorem larger_refl {α : Type} (n : ℕ) (a b draw : Option α) : larger n n a b draw = draw := by
  unfold larger
  rw [if_neg (lt_irrefl n), if_neg (lt_irrefl n)]

theorem breakTie_cascade (h : specificityScore a = specificityScore b) (inputs : ChainMatchInputs) :
    breakTie a b inputs =
      larger (destinationLength inputs a) (destinationLength inputs b) (some a) (some b)
        (larger (nameRank inputs b).1 (nameRank inputs a).1 (some a) (some b)
          (larger (nameRank inputs a).2 (nameRank inputs b).2 (some a) (some b)
            (larger (sourceLength inputs a) (sourceLength inputs b) (some a) (some b) none))) := by
  obtain ⟨hdest, hname, hsource⟩ := same_dimensions h
  have hbySource : (if a.sourcePrefixRanges ≠ [] ∧ b.sourcePrefixRanges ≠ [] then
        larger (longestPrefix inputs.sourceIP a.sourcePrefixRanges)
          (longestPrefix inputs.sourceIP b.sourcePrefixRanges) (some a) (some b) none
      else none) =
      larger (sourceLength inputs a) (sourceLength inputs b) (some a) (some b) none := by
    unfold sourceLength
    by_cases ha : a.sourcePrefixRanges ≠ []
    · rw [if_pos ⟨ha, hsource.mp ha⟩, if_pos ha, if_pos (hsource.mp ha)]
    · have hb : ¬ b.sourcePrefixRanges ≠ [] := fun hb => ha (hsource.mpr hb)
      rw [if_neg (fun hab => ha hab.1), if_neg ha, if_neg hb, larger_refl]
  have hbyName (draw : Option ChainSpec) : (if a.serverNames ≠ [] ∧ b.serverNames ≠ [] then
        larger (sniMatchedRank b.serverNames inputs.serverName).1
          (sniMatchedRank a.serverNames inputs.serverName).1 (some a) (some b)
          (larger (sniMatchedRank a.serverNames inputs.serverName).2
            (sniMatchedRank b.serverNames inputs.serverName).2 (some a) (some b) draw)
      else draw) =
      larger (nameRank inputs b).1 (nameRank inputs a).1 (some a) (some b)
        (larger (nameRank inputs a).2 (nameRank inputs b).2 (some a) (some b) draw) := by
    unfold nameRank
    by_cases ha : a.serverNames ≠ []
    · rw [if_pos ⟨ha, hname.mp ha⟩, if_pos ha, if_pos (hname.mp ha)]
    · have hb : ¬ b.serverNames ≠ [] := fun hb => ha (hname.mpr hb)
      rw [if_neg (fun hab => ha hab.1), if_neg ha, if_neg hb, larger_refl, larger_refl]
  have hbyDest (draw : Option ChainSpec) : (if a.prefixRanges ≠ [] ∧ b.prefixRanges ≠ [] then
        larger (longestPrefix inputs.destinationIP a.prefixRanges)
          (longestPrefix inputs.destinationIP b.prefixRanges) (some a) (some b) draw
      else draw) =
      larger (destinationLength inputs a) (destinationLength inputs b) (some a) (some b)
        draw := by
    unfold destinationLength
    by_cases ha : a.prefixRanges ≠ []
    · rw [if_pos ⟨ha, hdest.mp ha⟩, if_pos ha, if_pos (hdest.mp ha)]
    · have hb : ¬ b.prefixRanges ≠ [] := fun hb => ha (hdest.mpr hb)
      rw [if_neg (fun hab => ha hab.1), if_neg ha, if_neg hb, larger_refl]
  rw [← hbySource, ← hbyName, ← hbyDest]
  rfl

theorem larger_lex {α : Type} (a b : α) (n da db ra rb la lb sa sb : ℕ) :
    let ka : Key := toLex (n, toLex (da, toLex (OrderDual.toDual ra, toLex (la, sa))))
    let kb : Key := toLex (n, toLex (db, toLex (OrderDual.toDual rb, toLex (lb, sb))))
    larger da db (some a) (some b) (larger rb ra (some a) (some b)
        (larger la lb (some a) (some b) (larger sa sb (some a) (some b) none))) =
      if ka < kb then some b else if kb < ka then some a else none := by
  intro ka kb
  have hlt : ka < kb ↔ da < db ∨ da = db ∧ (rb < ra ∨ rb = ra ∧ (la < lb ∨ la = lb ∧ sa < sb)) := by
    simp only [ka, kb, Prod.Lex.toLex_lt_toLex, OrderDual.toDual_lt_toDual, lt_irrefl, false_or,
      true_and, EmbeddingLike.apply_eq_iff_eq]
    omega
  have hgt : kb < ka ↔ db < da ∨ db = da ∧ (ra < rb ∨ ra = rb ∧ (lb < la ∨ lb = la ∧ sb < sa)) := by
    simp only [ka, kb, Prod.Lex.toLex_lt_toLex, OrderDual.toDual_lt_toDual, lt_irrefl, false_or,
      true_and, EmbeddingLike.apply_eq_iff_eq]
    omega
  simp only [hlt, hgt]
  unfold larger
  split_ifs
  all_goals first | rfl | omega

theorem key_lt_of_score (h : specificityScore a < specificityScore b) :
    key inputs a < key inputs b :=
  Prod.Lex.toLex_lt_toLex.mpr (.inl h)

theorem breakTie_eq (h : specificityScore a = specificityScore b) (inputs : ChainMatchInputs) :
    breakTie a b inputs =
      if key inputs a < key inputs b then some b
      else if key inputs b < key inputs a then some a else none := by
  rw [breakTie_cascade h, larger_lex a b (specificityScore a)]
  unfold key
  rw [← h]

def report : Option ChainSpec → Except ChainError ChainSpec
  | some c => .ok c
  | none => .error .ambiguousChainMatch

theorem selectBest_eq (inputs : ChainMatchInputs) (best : ChainSpec) (cs : List ChainSpec) :
    selectBest inputs best (specificityScore best) cs = report (scan (key inputs) best cs) := by
  induction cs generalizing best with
  | nil => rfl
  | cons c cs ih =>
    unfold selectBest scan
    dsimp only
    rcases lt_trichotomy (specificityScore best) (specificityScore c) with hlt | heq | hgt
    · rw [if_pos hlt, if_pos (key_lt_of_score hlt)]
      exact ih c
    · rw [if_neg (by omega), if_pos heq.symm, breakTie_eq heq]
      split_ifs with hup hdown
      · rw [heq]
        exact ih c
      · exact ih best
      · rfl
    · have hdown : key inputs c < key inputs best := key_lt_of_score hgt
      rw [if_neg (by omega), if_neg (by omega), if_neg (not_lt_of_gt hdown), if_pos hdown]
      exact ih best

/-- The eligible chains, in the order of the list. -/
def eligible (inputs : ChainMatchInputs) (chains : List ChainSpec) : List ChainSpec :=
  chains.filter (fun c => matchesInputs c inputs)

/-- What the choice is to be: the greatest eligible chain where there is one, the default where no
chain is eligible, and the error of ambiguity where the greatest is not unique. -/
structure Chosen (inputs : ChainMatchInputs) (chains : List ChainSpec)
    (defaultChain : Option ChainSpec) (out : Except ChainError ChainSpec) : Prop where
  absent : eligible inputs chains = [] →
    out = defaultChain.elim (.error .noChainMatched) .ok
  greatest : eligible inputs chains ≠ [] →
    ∀ c, out = .ok c ↔ Greatest (key inputs) (eligible inputs chains) c
  ambiguous : out = .error .ambiguousChainMatch ↔
    eligible inputs chains ≠ [] ∧ Tied (key inputs) (eligible inputs chains)

theorem selectChain_of_nil (h : eligible inputs chains = []) (defaultChain : Option ChainSpec) :
    selectChain inputs chains defaultChain =
      defaultChain.elim (.error .noChainMatched) .ok := by
  unfold selectChain
  rw [show chains.filter (fun c => matchesInputs c inputs) = [] from h]
  cases defaultChain with
  | none => rfl
  | some c => rfl

theorem selectChain_of_cons {rest : List ChainSpec} {best : ChainSpec}
    (h : eligible inputs chains = best :: rest) (defaultChain : Option ChainSpec) :
    selectChain inputs chains defaultChain = report (scan (key inputs) best rest) := by
  unfold selectChain
  rw [show chains.filter (fun c => matchesInputs c inputs) = best :: rest from h]
  exact selectBest_eq inputs best rest

theorem selectChain_ambiguous_iff (inputs : ChainMatchInputs) (chains : List ChainSpec)
    (defaultChain : Option ChainSpec) :
    selectChain inputs chains defaultChain = .error .ambiguousChainMatch ↔
      ∃ p, p ≠ [] ∧ p <+: eligible inputs chains ∧ Tied (key inputs) p := by
  cases hel : eligible inputs chains with
  | nil =>
    rw [selectChain_of_nil hel]
    constructor
    · intro h
      cases defaultChain with
      | none => cases h
      | some c => cases h
    · rintro ⟨p, hne, hp, -⟩
      exact absurd (List.prefix_nil.mp hp) hne
  | cons best rest =>
    rw [selectChain_of_cons hel]
    have hnone : scan (key inputs) best rest = none ↔
        ∃ p, p <+: rest ∧ Tied (key inputs) ([best] ++ p) :=
      scan_none_iff (greatest_singleton (key inputs) best)
    have hreport : report (scan (key inputs) best rest) = .error .ambiguousChainMatch ↔
        scan (key inputs) best rest = none := by
      cases scan (key inputs) best rest with
      | none => exact iff_of_true rfl rfl
      | some c =>
        refine iff_of_false ?_ (Option.some_ne_none c)
        intro h
        cases h
    rw [hreport, hnone]
    constructor
    · rintro ⟨p, hp, htied⟩
      exact ⟨best :: p, List.cons_ne_nil _ _, List.cons_prefix_cons.mpr ⟨rfl, hp⟩, htied⟩
    · rintro ⟨p, hne, hp, htied⟩
      cases p with
      | nil => exact absurd rfl hne
      | cons x p =>
        obtain ⟨rfl, hp'⟩ := List.cons_prefix_cons.mp hp
        exact ⟨p, hp', htied⟩

theorem selectChain_ok {defaultChain : Option ChainSpec} {c : ChainSpec}
    (hne : eligible inputs chains ≠ []) (h : selectChain inputs chains defaultChain = .ok c) :
    Greatest (key inputs) (eligible inputs chains) c := by
  obtain ⟨best, rest, hel⟩ := List.exists_cons_of_ne_nil hne
  rw [selectChain_of_cons hel] at h
  cases hscan : scan (key inputs) best rest with
  | none =>
    rw [hscan] at h
    cases h
  | some m =>
    rw [hscan] at h
    cases h
    rw [hel]
    exact scan_some (greatest_singleton (key inputs) best) hscan

theorem selectChain_cases (hne : eligible inputs chains ≠ []) (defaultChain : Option ChainSpec) :
    (∃ c, selectChain inputs chains defaultChain = .ok c) ∨
      selectChain inputs chains defaultChain = .error .ambiguousChainMatch := by
  obtain ⟨best, rest, hel⟩ := List.exists_cons_of_ne_nil hne
  rw [selectChain_of_cons hel]
  cases scan (key inputs) best rest with
  | none => exact .inr rfl
  | some c => exact .inl ⟨c, rfl⟩

/-- A tie among the first eligible chains is one among all of them. -/
def EarlyTiesStay (inputs : ChainMatchInputs) (chains : List ChainSpec) : Prop :=
  ∀ p, p ≠ [] → p <+: eligible inputs chains → Tied (key inputs) p →
    Tied (key inputs) (eligible inputs chains)

theorem chosen_iff (inputs : ChainMatchInputs) (chains : List ChainSpec)
    (defaultChain : Option ChainSpec) :
    Chosen inputs chains defaultChain (selectChain inputs chains defaultChain) ↔
      EarlyTiesStay inputs chains := by
  have hamb := selectChain_ambiguous_iff inputs chains defaultChain
  constructor
  · intro h p hne hp htied
    exact (h.ambiguous.mp (hamb.mpr ⟨p, hne, hp, htied⟩)).2
  · intro hstay
    refine ⟨fun h => selectChain_of_nil h defaultChain, ?_, ?_⟩
    · intro hne c
      refine ⟨selectChain_ok hne, ?_⟩
      intro hc
      rcases selectChain_cases hne defaultChain with ⟨d, hd⟩ | herr
      · rw [hd, (selectChain_ok hne hd).unique hc]
      · obtain ⟨p, hpne, hp, htied⟩ := hamb.mp herr
        exact absurd ⟨c, hc⟩ (hstay p hpne hp htied)
    · rw [hamb]
      constructor
      · rintro ⟨p, hpne, hp, htied⟩
        refine ⟨?_, hstay p hpne hp htied⟩
        intro hnil
        rw [hnil] at hp
        exact hpne (List.prefix_nil.mp hp)
      · rintro ⟨hne, htied⟩
        exact ⟨eligible inputs chains, hne, List.prefix_refl _, htied⟩

theorem Chosen.perm {chains' : List ChainSpec} {defaultChain : Option ChainSpec}
    {out : Except ChainError ChainSpec} (hp : chains.Perm chains')
    (h : Chosen inputs chains defaultChain out) : Chosen inputs chains' defaultChain out := by
  have hel : (eligible inputs chains).Perm (eligible inputs chains') := hp.filter _
  have hnil : eligible inputs chains = [] ↔ eligible inputs chains' = [] := by
    constructor
    · intro hn
      rw [hn] at hel
      exact hel.symm.eq_nil
    · intro hn
      rw [hn] at hel
      exact hel.eq_nil
  refine ⟨fun hn => h.absent (hnil.mpr hn), fun hne c => ?_, ?_⟩
  · rw [h.greatest (fun hn => hne (hnil.mp hn)) c]
    exact ⟨fun hc => hc.perm hel, fun hc => hc.perm hel.symm⟩
  · rw [h.ambiguous, tied_perm hel]
    exact and_congr_left (fun _ => not_congr hnil)

theorem Chosen.unique {defaultChain : Option ChainSpec} {out out' : Except ChainError ChainSpec}
    (h : Chosen inputs chains defaultChain out) (h' : Chosen inputs chains defaultChain out') :
    out = out' := by
  by_cases hne : eligible inputs chains = []
  · rw [h.absent hne, h'.absent hne]
  · by_cases htied : Tied (key inputs) (eligible inputs chains)
    · rw [h.ambiguous.mpr ⟨hne, htied⟩, h'.ambiguous.mpr ⟨hne, htied⟩]
    · unfold Tied at htied
      push Not at htied
      obtain ⟨c, hc⟩ := htied
      rw [(h.greatest hne c).mpr hc, (h'.greatest hne c).mpr hc]

/-- The greatest eligible chain is tied, or no two eligible chains are. -/
def TiesAtTopOnly (inputs : ChainMatchInputs) (chains : List ChainSpec) : Prop :=
  Tied (key inputs) (eligible inputs chains) ∨
    (eligible inputs chains).Pairwise (fun a b => key inputs a ≠ key inputs b)

theorem earlyTiesStay_of_perm {chains' : List ChainSpec} (hp : chains.Perm chains')
    (h : TiesAtTopOnly inputs chains) : EarlyTiesStay inputs chains' := by
  have hel : (eligible inputs chains).Perm (eligible inputs chains') := hp.filter _
  intro p hne hpre htied
  rcases h with htop | hkeys
  · exact (tied_perm hel).mp htop
  · have hkeys' : (eligible inputs chains').Pairwise (fun a b => key inputs a ≠ key inputs b) :=
      hkeys.perm hel (fun hab => hab.symm)
    exact absurd (exists_greatest hne (hkeys'.sublist hpre.sublist)) htied

theorem exists_perm_of_eligible (inputs : ChainMatchInputs) (chains : List ChainSpec)
    {front : List ChainSpec} (h : (eligible inputs chains).Perm front) :
    ∃ chains', chains.Perm chains' ∧ eligible inputs chains' = front := by
  have hall : ∀ c ∈ front, matchesInputs c inputs = true := by
    intro c hc
    exact (List.mem_filter.mp (h.mem_iff.mpr hc)).2
  refine ⟨front ++ chains.filter (fun c => !matchesInputs c inputs), ?_, ?_⟩
  · have hsplit := List.filter_append_perm (fun c => matchesInputs c inputs) chains
    exact hsplit.symm.trans (h.append_right _)
  · unfold eligible
    rw [List.filter_append, List.filter_eq_self.mpr hall, List.filter_filter]
    have hnone :
        chains.filter (fun c => matchesInputs c inputs && !matchesInputs c inputs) = [] := by
      apply List.filter_eq_nil_iff.mpr
      intro c _
      cases matchesInputs c inputs
      all_goals decide
    rw [hnone, List.append_nil]

theorem selectChain_greatest_first {rest : List ChainSpec} {g : ChainSpec}
    (hel : eligible inputs chains = g :: rest) (hlt : ∀ x ∈ rest, key inputs x < key inputs g)
    (defaultChain : Option ChainSpec) : selectChain inputs chains defaultChain = .ok g := by
  have hstay : EarlyTiesStay inputs chains := by
    intro p hne hp htied
    rw [hel] at hp
    cases p with
    | nil => exact absurd rfl hne
    | cons x p =>
      obtain ⟨rfl, hp'⟩ := List.cons_prefix_cons.mp hp
      have hx : Greatest (key inputs) (x :: p) x :=
        ⟨p, List.Perm.refl _, fun y hy => hlt y (hp'.subset hy)⟩
      exact absurd ⟨x, hx⟩ htied
  have hne : eligible inputs chains ≠ [] := by
    rw [hel]
    exact List.cons_ne_nil _ _
  refine (((chosen_iff inputs chains defaultChain).mpr hstay).greatest hne g).mpr ?_
  rw [hel]
  exact ⟨rest, List.Perm.refl _, hlt⟩

theorem order_irrelevant_iff (inputs : ChainMatchInputs) (chains : List ChainSpec)
    (defaultChain : Option ChainSpec) :
    (∀ chains', chains.Perm chains' →
      selectChain inputs chains' defaultChain = selectChain inputs chains defaultChain) ↔
      TiesAtTopOnly inputs chains := by
  constructor
  · intro hsame
    by_contra hnot
    unfold TiesAtTopOnly at hnot
    push Not at hnot
    obtain ⟨huntied, hkeys⟩ := hnot
    unfold Tied at huntied
    push Not at huntied
    obtain ⟨g, rest, hrest, hlt⟩ := huntied
    obtain ⟨first, hfirst, hel⟩ := exists_perm_of_eligible inputs chains hrest
    have hok := selectChain_greatest_first hel hlt defaultChain
    obtain ⟨a, b, others, hothers, heq⟩ := exists_tie_in_front hkeys
    obtain ⟨second, hsecond, hel'⟩ := exists_perm_of_eligible inputs chains hothers
    have htied : Tied (key inputs) [a, b] :=
      (greatest_singleton (key inputs) a).tied heq.symm
    have herr : selectChain inputs second defaultChain = .error .ambiguousChainMatch := by
      apply (selectChain_ambiguous_iff inputs second defaultChain).mpr
      refine ⟨[a, b], List.cons_ne_nil _ _, ?_, htied⟩
      rw [hel']
      exact ⟨others, rfl⟩
    rw [hsame first hfirst, ← hsame second hsecond, herr] at hok
    cases hok
  · intro h chains' hp
    have hchosen := (chosen_iff inputs chains defaultChain).mpr
      (earlyTiesStay_of_perm (List.Perm.refl _) h)
    have hchosen' := (chosen_iff inputs chains' defaultChain).mpr (earlyTiesStay_of_perm hp h)
    exact hchosen'.unique (hchosen.perm hp)

/-- The choice is the greatest eligible chain, and ambiguity is reported for a tie at the top alone,
exactly when a tie among the first eligible chains is never beaten by a later one; it is so for
every order of the chains exactly when ties are at the top only. -/
theorem chain_selection_is_greatest_iff (inputs : ChainMatchInputs) (chains : List ChainSpec)
    (defaultChain : Option ChainSpec) :
    (Chosen inputs chains defaultChain (selectChain inputs chains defaultChain) ↔
      EarlyTiesStay inputs chains) ∧
    ((∀ chains', chains.Perm chains' →
      selectChain inputs chains' defaultChain = selectChain inputs chains defaultChain) ↔
      TiesAtTopOnly inputs chains) :=
  ⟨chosen_iff inputs chains defaultChain, order_irrelevant_iff inputs chains defaultChain⟩

/-- Two chains that tie on what they offer, and a third that names the server and beats both. -/
theorem beaten_tie_reported :
    let a := chainSpec "a" { applicationProtocols := ["h2"] }
    let b := chainSpec "b" { applicationProtocols := ["h2", "http/1.1"] }
    let c := chainSpec "c" { serverNames := ["x.test"] }
    let inputs : ChainMatchInputs := { serverName := "x.test", applicationProtocols := ["h2"] }
    selectChain inputs [a, b, c] none = .error .ambiguousChainMatch ∧
      Greatest (key inputs) (eligible inputs [a, b, c]) c ∧
      selectChain inputs [c, a, b] none = .ok c := by
  intro a b c inputs
  have hel : eligible inputs [a, b, c] = [a, b, c] := by rfl
  have hlow (x : ChainSpec) (hx : x ∈ [a, b]) : key inputs x < key inputs c := by
    apply key_lt_of_score
    rcases List.mem_cons.mp hx with rfl | hx
    · decide
    · rw [List.mem_singleton.mp hx]
      decide
  refine ⟨by rfl, ?_, by rfl⟩
  rw [hel]
  exact ⟨[a, b], List.perm_append_singleton c [a, b], hlow⟩

end EnvoyGo.ChainMatch
