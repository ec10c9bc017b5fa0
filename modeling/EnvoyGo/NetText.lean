import EnvoyGo.ChainMatch
import EnvoyGo.Delimited
import EnvoyGo.RateLimitDescriptors
import Mathlib.Data.List.TakeWhile

/-!
The text of an `IPNet`, and that the network can be read back from it.
-/

namespace EnvoyGo.ChainMatch

open Delimited
open RateLimit (dotted hextets zeroRun colonText ipString)

theorem hexDigits_inj {m n : ℕ} (h : RateLimit.hexDigits m = RateLimit.hexDigits n) : m = n := by
  have hchars := congrArg String.toList h
  rw [RateLimit.hexDigits, RateLimit.hexDigits, String.toList_ofList,
    String.toList_ofList] at hchars
  exact toDigits_inj (by decide) (by decide) hchars

theorem hexDigits_ne_empty (n : ℕ) : RateLimit.hexDigits n ≠ "" := by
  intro h
  have hchars := congrArg String.toList h
  rw [RateLimit.hexDigits, String.toList_ofList] at hchars
  exact Nat.toDigits_ne_nil hchars

variable {c : Char} {groups : List ℕ}

theorem notMem_hexDigits (hc : ∀ d < 16, c ≠ Nat.digitChar d) (n : ℕ) :
    c ∉ (RateLimit.hexDigits n).toList := by
  rw [RateLimit.hexDigits, String.toList_ofList]
  exact notMem_toDigits (by decide) (by decide) hc

theorem repr_inj {m n : ℕ} (h : Nat.repr m = Nat.repr n) : m = n := by
  have hchars := congrArg String.toList h
  rw [Nat.toList_repr, Nat.toList_repr] at hchars
  exact toDigits_inj (by decide) (by decide) hchars

theorem notMem_repr (hc : ∀ d < 16, c ≠ Nat.digitChar d) (n : ℕ) : c ∉ (Nat.repr n).toList := by
  rw [Nat.toList_repr]
  exact notMem_toDigits (by decide) (by decide) hc

theorem string_intercalate_inj {ls ms : List String} (hls : ∀ l ∈ ls, c ∉ l.toList)
    (hms : ∀ m ∈ ms, c ∉ m.toList) (hl : ls ≠ []) (hm : ms ≠ [])
    (h : (String.singleton c).intercalate ls = (String.singleton c).intercalate ms) : ls = ms := by
  have hchars := congrArg String.toList h
  rw [String.toList_intercalate, String.toList_intercalate, String.toList_singleton] at hchars
  refine List.map_injective_iff.mpr (fun _ _ heq => String.toList_inj.mp heq)
    (intercalate_inj (fun l hl => ?_) (fun m hm => ?_)
      (fun hnil => hl (List.map_eq_nil_iff.mp hnil)) (fun hnil => hm (List.map_eq_nil_iff.mp hnil))
      hchars)
  · obtain ⟨s, hs, rfl⟩ := List.mem_map.mp hl
    exact hls s hs
  · obtain ⟨s, hs, rfl⟩ := List.mem_map.mp hm
    exact hms s hs

theorem notMem_string_intercalate {d : Char} {ls : List String} (hcd : c ≠ d)
    (hls : ∀ l ∈ ls, c ∉ l.toList) : c ∉ ((String.singleton d).intercalate ls).toList := by
  induction ls with
  | nil =>
    rw [String.intercalate_nil]
    exact List.not_mem_nil
  | cons l ls ih =>
    have hl := hls l List.mem_cons_self
    cases ls with
    | nil =>
      rw [String.intercalate_singleton]
      exact hl
    | cons l' ls =>
      have hrest := ih fun m hm => hls m (List.mem_cons_of_mem _ hm)
      rw [String.intercalate_cons_cons, String.toList_append, String.toList_append,
        String.toList_singleton]
      intro hmem
      rcases List.mem_append.mp hmem with hmem | hmem
      · rcases List.mem_append.mp hmem with hmem | hmem
        · exact hl hmem
        · exact hcd (List.mem_singleton.mp hmem)
      · exact hrest hmem

def edge (groups : List ℕ) : List String :=
  if groups = [] then [""] else groups.map RateLimit.hexDigits

theorem edge_ne_nil (groups : List ℕ) : edge groups ≠ [] := by
  unfold edge
  split_ifs with h
  · exact List.cons_ne_nil _ _
  · exact fun hmap => h (List.map_eq_nil_iff.mp hmap)

theorem reverse_edge (groups : List ℕ) : (edge groups).reverse = edge groups.reverse := by
  unfold edge
  by_cases h : groups = []
  · rw [h]
    rfl
  · rw [if_neg h, if_neg (fun hr => h (List.reverse_eq_nil_iff.mp hr)), List.map_reverse]

theorem intercalate_edge (groups : List ℕ) :
    ":".intercalate (edge groups) = ":".intercalate (groups.map RateLimit.hexDigits) := by
  unfold edge
  split_ifs with h
  · rw [h, String.intercalate_singleton]
    rfl
  · rfl

theorem takeWhile_edge (groups : List ℕ) (rest : List String) :
    (edge groups ++ "" :: rest).takeWhile (fun p => p ≠ "") = groups.map RateLimit.hexDigits := by
  unfold edge
  split_ifs with h
  · rw [h]
    rfl
  · have hall : ∀ p ∈ groups.map RateLimit.hexDigits, decide (p ≠ "") = true := by
      intro p hp
      obtain ⟨n, -, rfl⟩ := List.mem_map.mp hp
      exact decide_eq_true (hexDigits_ne_empty n)
    rw [List.takeWhile_append_of_pos hall]
    exact List.append_nil _

def GapOk (groups : List ℕ) (gap : ℕ × ℕ) : Prop :=
  (groups.drop gap.1).take (gap.2 - gap.1) = List.replicate (gap.2 - gap.1) 0 ∧ gap.1 ≤ gap.2

theorem gapOk_of_zeroRun {gap : ℕ × ℕ} (h : zeroRun groups = some gap) : GapOk groups gap := by
  have hfold : ∀ (is : List ℕ) (best : Option (ℕ × ℕ)), (∀ g, best = some g → GapOk groups g) →
      ∀ g, is.foldl (fun best i =>
        let l := ((groups.drop i).takeWhile (· == 0)).length
        if 2 ≤ l ∧ (best.map (fun r => r.2 - r.1)).getD 0 < l then some (i, i + l) else best)
        best = some g → GapOk groups g := by
    intro is
    induction is with
    | nil => exact fun best hbest g hg => hbest g hg
    | cons i is ih =>
      intro best hbest
      refine ih _ fun g hg => ?_
      dsimp only at hg
      split_ifs at hg
      · rw [← Option.some.inj hg]
        have hrun := List.prefix_iff_eq_take.mp
          (List.takeWhile_prefix (fun n => n == 0) (l := groups.drop i))
        refine ⟨?_, Nat.le_add_right _ _⟩
        rw [Nat.add_sub_cancel_left, ← hrun]
        refine List.eq_replicate_iff.mpr ⟨rfl, fun n hn => ?_⟩
        have hzero := List.mem_takeWhile_imp hn
        exact eq_of_beq hzero
      · exact hbest g hg
  exact hfold _ none (fun g hg => by cases hg) gap h

theorem eq_of_gap {gap : ℕ × ℕ} (h : GapOk groups gap) :
    groups = groups.take gap.1 ++ List.replicate
      (groups.length - (groups.take gap.1).length - (groups.drop gap.2).length) 0 ++
        groups.drop gap.2 := by
  have hcut : groups.take gap.1 ++ (List.replicate (gap.2 - gap.1) 0 ++ groups.drop gap.2) =
      groups := by
    have hdrop : groups.drop gap.2 = (groups.drop gap.1).drop (gap.2 - gap.1) := by
      rw [List.drop_drop, Nat.add_sub_cancel' h.2]
    rw [hdrop, ← h.1, List.take_append_drop, List.take_append_drop]
  have hlen := congrArg List.length hcut
  rw [List.length_append, List.length_append, List.length_replicate] at hlen
  have hcount : groups.length - (groups.take gap.1).length - (groups.drop gap.2).length =
      gap.2 - gap.1 := by omega
  rw [hcount, List.append_assoc, hcut]

def colonParts (groups : List ℕ) : List String :=
  match zeroRun groups with
  | none => groups.map RateLimit.hexDigits
  | some gap => edge (groups.take gap.1) ++ "" :: edge (groups.drop gap.2)

theorem colonText_eq (ip : IP) : colonText ip = ":".intercalate (colonParts (hextets ip)) := by
  unfold colonText colonParts
  dsimp only
  cases zeroRun (hextets ip) with
  | none => rfl
  | some gap =>
    dsimp only
    rw [String.intercalate_append_of_ne_nil (edge_ne_nil _) (List.cons_ne_nil _ _),
      String.intercalate_cons_of_ne_nil (edge_ne_nil _), intercalate_edge, intercalate_edge,
      String.empty_append]
    have hcolons : "::" = ":" ++ ":" := rfl
    rw [hcolons]
    simp only [String.append_assoc]

theorem notMem_colonParts (hc : ∀ d < 16, c ≠ Nat.digitChar d) (groups : List ℕ) :
    ∀ p ∈ colonParts groups, c ∉ p.toList := by
  have hmap : ∀ gs : List ℕ, ∀ p ∈ gs.map RateLimit.hexDigits, c ∉ p.toList := by
    intro gs p hp
    obtain ⟨n, -, rfl⟩ := List.mem_map.mp hp
    exact notMem_hexDigits hc n
  have hedge : ∀ gs : List ℕ, ∀ p ∈ edge gs, c ∉ p.toList := by
    intro gs p hp
    unfold edge at hp
    split_ifs at hp
    · rw [List.mem_singleton.mp hp]
      exact List.not_mem_nil
    · exact hmap gs p hp
  intro p hp
  unfold colonParts at hp
  split at hp
  · exact hmap groups p hp
  · rcases List.mem_append.mp hp with hp | hp
    · exact hedge _ p hp
    · rcases List.mem_cons.mp hp with hp | hp
      · rw [hp]
        exact List.not_mem_nil
      · exact hedge _ p hp

theorem mem_colonParts_empty : "" ∈ colonParts groups ↔ zeroRun groups ≠ none := by
  unfold colonParts
  cases zeroRun groups with
  | none =>
    refine iff_of_false (fun hmem => ?_) (fun h => h rfl)
    obtain ⟨n, -, hn⟩ := List.mem_map.mp hmem
    exact hexDigits_ne_empty n hn
  | some gap =>
    exact iff_of_true (List.mem_append_right _ List.mem_cons_self) (Option.some_ne_none gap)

theorem colonParts_inj {as bs : List ℕ} (hlen : as.length = bs.length)
    (h : colonParts as = colonParts bs) : as = bs := by
  have hinj : ∀ {ms ns : List ℕ},
      ms.map RateLimit.hexDigits = ns.map RateLimit.hexDigits → ms = ns :=
    fun heq => List.map_injective_iff.mpr (fun _ _ => hexDigits_inj) heq
  have hboth : "" ∈ colonParts as ↔ zeroRun as ≠ none := mem_colonParts_empty
  rw [h, mem_colonParts_empty] at hboth
  cases ha : zeroRun as with
  | none =>
    have hb : zeroRun bs = none := not_not.mp fun hne => hboth.mp hne ha
    unfold colonParts at h
    rw [ha, hb] at h
    exact hinj h
  | some ga =>
    obtain ⟨gb, hb⟩ : ∃ gb, zeroRun bs = some gb := by
      refine Option.ne_none_iff_exists'.mp (hboth.mpr ?_)
      rw [ha]
      exact Option.some_ne_none ga
    unfold colonParts at h
    rw [ha, hb] at h
    dsimp only at h
    have hfront := congrArg (List.takeWhile fun p => p ≠ "") h
    have hback := congrArg (fun l => l.reverse.takeWhile fun p => p ≠ "") h
    rw [takeWhile_edge, takeWhile_edge] at hfront
    simp only [List.reverse_append, List.reverse_cons, List.append_assoc, reverse_edge] at hback
    change (edge _ ++ "" :: _).takeWhile _ = (edge _ ++ "" :: _).takeWhile _ at hback
    rw [takeWhile_edge, takeWhile_edge] at hback
    rw [eq_of_gap (gapOk_of_zeroRun ha), eq_of_gap (gapOk_of_zeroRun hb), hinj hfront,
      List.reverse_injective (hinj hback), hlen]

theorem hextets_inj : ∀ {a b : IP}, a.length % 2 = 0 → a.length = b.length →
    hextets a = hextets b → a = b
  | [], [], _, _, _ => rfl
  | [_], _, heven, _, _ => by simp at heven
  | _ :: _ :: _, [_], _, hlen, _ => by simp at hlen
  | hi :: lo :: rest, hi' :: lo' :: rest', heven, hlen, h => by
    obtain ⟨hgroup, hrest⟩ := List.cons.inj h
    have hlo := lo.toNat_lt
    have hlo' := lo'.toNat_lt
    have hbytes : hi.toNat = hi'.toNat ∧ lo.toNat = lo'.toNat := by omega
    rw [List.length_cons, List.length_cons] at heven
    rw [UInt8.toNat_inj.mp hbytes.1, UInt8.toNat_inj.mp hbytes.2,
      hextets_inj (by omega) (by simpa using hlen) hrest]

theorem length_hextets : ∀ ip : IP, (hextets ip).length = ip.length / 2
  | [] => by simp [hextets]
  | [_] => by simp [hextets]
  | _ :: _ :: rest => by
    rw [hextets, List.length_cons, length_hextets rest, List.length_cons, List.length_cons]
    omega

theorem colonParts_ne_nil (h : groups ≠ []) : colonParts groups ≠ [] := by
  unfold colonParts
  cases zeroRun groups with
  | none => exact fun hmap => h (List.map_eq_nil_iff.mp hmap)
  | some gap => exact List.append_ne_nil_of_left_ne_nil (edge_ne_nil _) _

theorem colon_ne : ∀ d < 16, ':' ≠ Nat.digitChar d := by decide

theorem dot_ne : ∀ d < 16, '.' ≠ Nat.digitChar d := by decide

theorem colonText_inj {a b : IP} (ha : a.length = 16) (hb : b.length = 16)
    (h : colonText a = colonText b) : a = b := by
  have hne : ∀ ip : IP, ip.length = 16 → hextets ip ≠ [] := by
    intro ip hip hnil
    have hlen := length_hextets ip
    rw [hnil, hip] at hlen
    cases hlen
  rw [colonText_eq, colonText_eq] at h
  have hparts := string_intercalate_inj (notMem_colonParts colon_ne _)
    (notMem_colonParts colon_ne _) (colonParts_ne_nil (hne a ha)) (colonParts_ne_nil (hne b hb)) h
  refine hextets_inj (by rw [ha]) (ha.trans hb.symm) (colonParts_inj ?_ hparts)
  rw [length_hextets, length_hextets, ha, hb]

theorem dotted_inj {a b : IP} (ha : a ≠ []) (hb : b ≠ []) (h : dotted a = dotted b) : a = b := by
  have hfree : ∀ ip : IP, ∀ l ∈ ip.map (fun x => Nat.repr x.toNat), '.' ∉ l.toList := by
    intro ip l hl
    obtain ⟨x, -, rfl⟩ := List.mem_map.mp hl
    exact notMem_repr dot_ne _
  have hparts := string_intercalate_inj (hfree a) (hfree b)
    (fun hnil => ha (List.map_eq_nil_iff.mp hnil)) (fun hnil => hb (List.map_eq_nil_iff.mp hnil)) h
  exact List.map_injective_iff.mpr (fun _ _ heq => UInt8.toNat_inj.mp (repr_inj heq)) hparts

/-- An address in the shape that `networkNumberAndMask` leaves it in. -/
def Settled (ip : IP) : Prop := ip.length = 4 ∨ ip.length = 16 ∧ to4 ip = none

theorem ipString_settled {ip : IP} (h : Settled ip) :
    ipString ip = if ip.length = 4 then dotted ip else colonText ip := by
  unfold ipString
  rcases h with h | ⟨h, hnone⟩
  · have hto4 : Net.to4 ip = some ip := if_pos h
    rw [hto4, h]
    rfl
  · have hto4 : Net.to4 ip = none := hnone
    rw [hto4, h]
    rfl

theorem notMem_dotted (hc : ∀ d < 16, c ≠ Nat.digitChar d) (hdot : c ≠ '.') (ip : IP) :
    c ∉ (dotted ip).toList := by
  refine notMem_string_intercalate (d := '.') hdot fun l hl => ?_
  obtain ⟨x, -, rfl⟩ := List.mem_map.mp hl
  exact notMem_repr hc _

theorem notMem_colonText (hc : ∀ d < 16, c ≠ Nat.digitChar d) (hcolon : c ≠ ':') (ip : IP) :
    c ∉ (colonText ip).toList := by
  rw [colonText_eq]
  exact notMem_string_intercalate (d := ':') hcolon (notMem_colonParts hc _)

theorem notMem_ipString (hc : ∀ d < 16, c ≠ Nat.digitChar d) (hdot : c ≠ '.') (hcolon : c ≠ ':')
    {ip : IP} (h : Settled ip) : c ∉ (ipString ip).toList := by
  rw [ipString_settled h]
  split_ifs
  · exact notMem_dotted hc hdot ip
  · exact notMem_colonText hc hcolon ip

theorem dot_mem_dotted {ip : IP} (h : 2 ≤ ip.length) : '.' ∈ (dotted ip).toList := by
  obtain ⟨x, rest, rfl⟩ : ∃ x rest, ip = x :: rest := by
    refine List.exists_cons_of_ne_nil fun hnil => ?_
    rw [hnil] at h
    cases h
  have hrest : rest.map (fun y => Nat.repr y.toNat) ≠ [] := by
    intro hnil
    rw [List.map_eq_nil_iff.mp hnil] at h
    exact Nat.not_succ_le_self 1 h
  unfold dotted
  rw [List.map_cons, String.intercalate_cons_of_ne_nil hrest, String.toList_append,
    String.toList_append]
  exact List.mem_append_left _ (List.mem_append_right _ List.mem_cons_self)

theorem ipString_inj {a b : IP} (ha : Settled a) (hb : Settled b)
    (h : ipString a = ipString b) : a = b := by
  have hmixed : ∀ {x y : IP}, x.length = 4 → dotted x ≠ colonText y := by
    intro x y hx heq
    refine notMem_colonText dot_ne (by decide) y ?_
    rw [← heq]
    exact dot_mem_dotted (by omega)
  rw [ipString_settled ha, ipString_settled hb] at h
  rcases ha with ha | ⟨ha, -⟩
  · rw [if_pos ha] at h
    rcases hb with hb | ⟨hb, -⟩
    · rw [if_pos hb] at h
      exact dotted_inj (by intro hnil; rw [hnil] at ha; cases ha)
        (by intro hnil; rw [hnil] at hb; cases hb) h
    · rw [if_neg (by omega)] at h
      exact absurd h (hmixed ha)
  · rw [if_neg (by omega)] at h
    rcases hb with hb | ⟨hb, -⟩
    · rw [if_pos hb] at h
      exact absurd h.symm (hmixed hb)
    · rw [if_neg (by omega)] at h
      exact colonText_inj ha hb h

/-- `simpleMaskLength`: the number of leading ones; `none`, its -1, when other ones follow. -/
def simpleMaskLength (mask : Bytes) : Option ℕ :=
  let ones := ((maskBits mask).takeWhile id).length
  if ((maskBits mask).drop ones).any id then none else some ones

def hexString (b : Bytes) : String :=
  String.join (b.map (fun x =>
    RateLimit.hexDigits (x.toNat / 16) ++ RateLimit.hexDigits (x.toNat % 16)))

def maskText (mask : Bytes) : String :=
  match simpleMaskLength mask with
  | some l => Nat.repr l
  | none => hexString mask

/-- `IPNet.String`. -/
def IPNet.string (n : IPNet) : String :=
  match n.networkNumberAndMask with
  | none => "<nil>"
  | some (number, mask) => ipString number ++ "/" ++ maskText mask

theorem byte_of_bits {x y : UInt8}
    (h : (List.range 8).map (fun i => x.toNat.testBit (7 - i)) =
      (List.range 8).map (fun i => y.toNat.testBit (7 - i))) : x = y := by
  refine UInt8.toNat_inj.mp (Nat.eq_of_testBit_eq fun i => ?_)
  by_cases hi : i < 8
  · have hbit := List.map_inj_left.mp h (7 - i) (List.mem_range.mpr (by omega))
    have hplace : 7 - (7 - i) = i := by omega
    rw [hplace] at hbit
    exact hbit
  · have hpow : 2 ^ 8 ≤ 2 ^ i := Nat.pow_le_pow_right (by decide) (by omega)
    have hx := x.toNat_lt
    have hy := y.toNat_lt
    rw [Nat.testBit_lt_two_pow (by omega), Nat.testBit_lt_two_pow (by omega)]

theorem maskBits_inj {a b : Bytes} (h : maskBits a = maskBits b) : a = b := by
  refine flatMap_inj (k := 8) (by decide) (fun x => ?_) (fun x y => byte_of_bits) h
  rw [List.length_map, List.length_range]

theorem length_maskBits (mask : Bytes) : (maskBits mask).length = 8 * mask.length := by
  unfold maskBits
  rw [List.length_flatMap]
  simp [Nat.mul_comm]

theorem maskBits_of_simple {mask : Bytes} {l : ℕ} (h : simpleMaskLength mask = some l) :
    maskBits mask = List.replicate l true ++ List.replicate (8 * mask.length - l) false ∧
      l ≤ 8 * mask.length := by
  unfold simpleMaskLength at h
  dsimp only at h
  split_ifs at h with hlate
  have hl := Option.some.inj h
  rw [hl] at hlate
  have hrun := List.prefix_iff_eq_take.mp (List.takeWhile_prefix id (l := maskBits mask))
  rw [hl] at hrun
  have hle : l ≤ 8 * mask.length := by
    rw [← hl, ← length_maskBits]
    exact (List.takeWhile_prefix id).length_le
  refine ⟨?_, hle⟩
  have hones : (maskBits mask).take l = List.replicate l true := by
    rw [← hrun]
    exact List.eq_replicate_iff.mpr ⟨hl, fun b hb => List.mem_takeWhile_imp hb⟩
  have hzeros : (maskBits mask).drop l = List.replicate (8 * mask.length - l) false := by
    refine List.eq_replicate_iff.mpr ⟨by rw [List.length_drop, length_maskBits], fun b hb => ?_⟩
    rw [← Bool.not_eq_true]
    exact fun htrue => hlate (List.any_eq_true.mpr ⟨b, hb, htrue⟩)
  rw [← hones, ← hzeros, List.take_append_drop]

theorem toList_hexString (b : Bytes) : (hexString b).toList =
    b.flatMap (fun x => [Nat.digitChar (x.toNat / 16), Nat.digitChar (x.toNat % 16)]) := by
  unfold hexString
  rw [String.toList_join, List.flatMap_map]
  refine congrArg (fun f => b.flatMap f) (funext fun x => ?_)
  have hhi : x.toNat / 16 < 16 := by
    have hx := x.toNat_lt
    omega
  rw [String.toList_append, RateLimit.hexDigits, RateLimit.hexDigits, String.toList_ofList,
    String.toList_ofList,
    Nat.toDigits_of_lt_base hhi, Nat.toDigits_of_lt_base (Nat.mod_lt _ (by decide))]
  rfl

theorem hexString_inj {a b : Bytes} (h : hexString a = hexString b) : a = b := by
  have hchars := congrArg String.toList h
  rw [toList_hexString, toList_hexString] at hchars
  refine flatMap_inj (k := 2) (by decide) (fun _ => rfl) (fun x y heq => ?_) hchars
  obtain ⟨hhi, hlo⟩ := List.cons.inj heq
  have hx := x.toNat_lt
  have hy := y.toNat_lt
  have hdiv := digitChar_inj (by omega) (by omega) hhi
  have hmod := digitChar_inj (by omega) (by omega) (List.cons.inj hlo).1
  exact UInt8.toNat_inj.mp (by omega)

theorem maskText_inj {a b : Bytes} (hlen : a.length = b.length) (ha : 4 ≤ a.length)
    (hle : a.length ≤ 16) (h : maskText a = maskText b) : a = b := by
  have hmixed : ∀ {x y : Bytes} {l : ℕ}, simpleMaskLength x = some l → x.length ≤ 16 →
      4 ≤ y.length → Nat.repr l ≠ hexString y := by
    intro x y l hx hxle hy heq
    have hshort : (Nat.repr l).length ≤ 3 := by
      refine (Nat.length_repr_le_iff (by decide)).mpr ?_
      have := (maskBits_of_simple hx).2
      omega
    have hlong : (hexString y).length = 2 * y.length := by
      rw [← String.length_toList, toList_hexString, List.length_flatMap]
      simp [Nat.mul_comm]
    rw [heq, hlong] at hshort
    omega
  unfold maskText at h
  cases hsa : simpleMaskLength a with
  | some l =>
    cases hsb : simpleMaskLength b with
    | some m =>
      rw [hsa, hsb] at h
      have hlm := repr_inj h
      refine maskBits_inj ?_
      rw [(maskBits_of_simple hsa).1, (maskBits_of_simple hsb).1, hlm, hlen]
    | none =>
      rw [hsa, hsb] at h
      exact absurd h (hmixed hsa hle (by omega))
  | none =>
    cases hsb : simpleMaskLength b with
    | some m =>
      rw [hsa, hsb] at h
      exact absurd h.symm (hmixed hsb (by omega) ha)
    | none =>
      rw [hsa, hsb] at h
      exact hexString_inj h

theorem notMem_maskText (hc : ∀ d < 16, c ≠ Nat.digitChar d) (mask : Bytes) :
    c ∉ (maskText mask).toList := by
  unfold maskText
  split
  · exact notMem_repr hc _
  · rw [toList_hexString]
    intro hmem
    obtain ⟨x, -, hx⟩ := List.mem_flatMap.mp hmem
    have hlt := x.toNat_lt
    rcases List.mem_cons.mp hx with heq | hx
    · exact hc _ (by omega) heq
    · exact hc _ (by omega) (List.mem_singleton.mp hx)

theorem networkNumberAndMask_shape {n : IPNet} {number mask : Bytes}
    (h : n.networkNumberAndMask = some (number, mask)) :
    Settled number ∧ mask.length = number.length := by
  have hsettled : ∀ {ip : IP}, ¬((to4 n.ip).isNone = true ∧ ip.length ≠ 16) →
      (to4 n.ip).getD n.ip = ip → Settled ip := by
    intro ip hok hip
    unfold to4 at hok hip
    unfold Settled to4
    split_ifs at hok hip with h4 h16
    · rw [← hip]
      exact .inl h4
    · refine .inl ?_
      rw [← hip, Option.getD_some, List.length_drop, h16.1]
    · rw [Option.getD_none] at hip
      rw [← hip] at hok ⊢
      refine .inr ⟨by simpa using hok, ?_⟩
      rw [if_neg h4, if_neg h16]
  unfold IPNet.networkNumberAndMask at h
  dsimp only at h
  split_ifs at h with hbad hmask hip hmask hip
  · obtain ⟨rfl, rfl⟩ := Prod.mk.inj (Option.some.inj h)
    exact ⟨hsettled hbad rfl, hmask.trans hip.symm⟩
  · obtain ⟨rfl, rfl⟩ := Prod.mk.inj (Option.some.inj h)
    refine ⟨hsettled hbad rfl, ?_⟩
    rw [List.length_drop, hmask, hip]
  · obtain ⟨rfl, rfl⟩ := Prod.mk.inj (Option.some.inj h)
    have hnumber := hsettled hbad rfl
    refine ⟨hnumber, ?_⟩
    rcases hnumber with hfour | ⟨hsixteen, -⟩
    · exact absurd hfour hip
    · rw [hmask, hsixteen]

theorem slash_ne : ∀ d < 16, '/' ≠ Nat.digitChar d := by decide

theorem string_inj {m n : IPNet} (h : m.string = n.string) :
    m.networkNumberAndMask = n.networkNumberAndMask := by
  have hnil : ∀ {k : IPNet} {number mask : Bytes}, k.networkNumberAndMask = some (number, mask) →
      "<nil>" ≠ ipString number ++ "/" ++ maskText mask := by
    intro k number mask _ heq
    have hslash : '/' ∉ "<nil>".toList := by decide
    rw [heq, String.toList_append, String.toList_append] at hslash
    exact hslash (List.mem_append_left _ (List.mem_append_right _ List.mem_cons_self))
  unfold IPNet.string at h
  cases hm : m.networkNumberAndMask with
  | none =>
    cases hn : n.networkNumberAndMask with
    | none => rfl
    | some q =>
      rw [hm, hn] at h
      exact absurd h (hnil hn)
  | some p =>
    cases hn : n.networkNumberAndMask with
    | none =>
      rw [hm, hn] at h
      exact absurd h.symm (hnil hm)
    | some q =>
      obtain ⟨hp, hplen⟩ := networkNumberAndMask_shape hm
      obtain ⟨hq, hqlen⟩ := networkNumberAndMask_shape hn
      rw [hm, hn] at h
      have hparts : [ipString p.1, maskText p.2] = [ipString q.1, maskText q.2] := by
        have hfree : ∀ {r : IP × Bytes}, Settled r.1 →
            ∀ l ∈ [ipString r.1, maskText r.2], '/' ∉ l.toList := by
          intro r hr l hl
          rcases List.mem_cons.mp hl with rfl | hl
          · exact notMem_ipString slash_ne (by decide) (by decide) hr
          · rw [List.mem_singleton.mp hl]
            exact notMem_maskText slash_ne _
        refine string_intercalate_inj (c := '/') (hfree hp) (hfree hq) (List.cons_ne_nil _ _)
          (List.cons_ne_nil _ _) ?_
        rw [String.intercalate_cons_cons, String.intercalate_cons_cons,
          String.intercalate_singleton, String.intercalate_singleton]
        exact h
      obtain ⟨hip, hmask⟩ := List.cons.inj hparts
      have hnumber := ipString_inj hp hq hip
      have hsize : p.1.length = 4 ∨ p.1.length = 16 := hp.imp_right And.left
      have htext := (List.cons.inj hmask).1
      have hmasks := maskText_inj (by rw [hplen, hqlen, hnumber]) (by omega) (by omega) htext
      rw [Prod.ext hnumber hmasks]

theorem notMem_string (hc : ∀ d < 16, c ≠ Nat.digitChar d) (hdot : c ≠ '.') (hcolon : c ≠ ':')
    (hslash : c ≠ '/') (hnil : c ∉ "<nil>".toList) (n : IPNet) : c ∉ n.string.toList := by
  unfold IPNet.string
  split
  · exact hnil
  · next number mask h =>
    rw [String.toList_append, String.toList_append]
    intro hmem
    rcases List.mem_append.mp hmem with hmem | hmem
    · rcases List.mem_append.mp hmem with hmem | hmem
      · exact notMem_ipString hc hdot hcolon (networkNumberAndMask_shape h).1 hmem
      · exact hslash (List.mem_singleton.mp hmem)
    · exact notMem_maskText hc _ hmem

end EnvoyGo.ChainMatch
