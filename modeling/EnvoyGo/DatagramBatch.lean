import EnvoyGo.Groupings
import Mathlib.Data.UInt

/-!
The batching of metric lines into datagrams, `appendBatchLine` and `flushBatch` of
`internal/statssink/udp.go`, as the `Submit` of the dog_statsd and of the graphite_statsd sink
drive them.
-/

namespace EnvoyGo.DatagramBatch

open EnvoyGo.Groupings

abbrev Bytes := List UInt8

def newline : UInt8 := 10

/-- The per-call buffer, with the datagrams that were handed to `write` so far. -/
structure Batch where
  buf : Bytes := []
  sent : List Bytes := []
deriving DecidableEq

def flushBatch (b : Batch) : Batch :=
  if b.buf.length = 0 then b else { buf := [], sent := b.sent ++ [b.buf] }

/-- `appendBatchLine`.  Both lengths are Go ints, so that the uint64 sum does not wrap. -/
def appendBatchLine (maxBytesPerDatagram : UInt64) (b : Batch) (line : Bytes) : Batch :=
  if b.buf.length = 0 then { b with buf := b.buf ++ line }
  else
    let prospective := b.buf.length + 1 + line.length
    if maxBytesPerDatagram.toNat < prospective then
      let b := flushBatch b
      { b with buf := b.buf ++ line }
    else { b with buf := b.buf ++ [newline] ++ line }

/-- The datagrams of one `Submit`: every line that `emitStatsdLines` emits goes through
`appendBatchLine`, and the last buffer is flushed. -/
def submit (maxBytesPerDatagram : UInt64) (lines : List Bytes) : List Bytes :=
  (flushBatch (lines.foldl (appendBatchLine maxBytesPerDatagram) {})).sent

/-- What a datagram with these lines holds. -/
def join (g : List Bytes) : Bytes := [newline].intercalate g

/-- The lines may share a datagram: together they are within the limit, or there is only one. -/
def Fits (limit : ℕ) (g : List Bytes) : Prop := (join g).length ≤ limit ∨ g.length = 1

instance (limit : ℕ) : DecidablePred (Fits limit) :=
  fun g => inferInstanceAs (Decidable ((join g).length ≤ limit ∨ g.length = 1))

@[simp]
theorem join_singleton (l : Bytes) : join [l] = l := List.intercalate_singleton

variable {g : List Bytes}

theorem join_cons {l : Bytes} (hg : g ≠ []) : join (l :: g) = l ++ newline :: join g := by
  unfold join
  rw [List.intercalate_cons_of_ne_nil hg, List.append_assoc, List.singleton_append]

theorem join_append {h : List Bytes} (hg : g ≠ []) (hh : h ≠ []) :
    join (g ++ h) = join g ++ newline :: join h := by
  induction g with
  | nil => exact absurd rfl hg
  | cons l g ih =>
    by_cases hnil : g = []
    · rw [hnil, List.singleton_append, join_cons hh, join_singleton]
    · have hne : g ++ h ≠ [] := List.append_ne_nil_of_left_ne_nil hnil h
      rw [List.cons_append, join_cons hne, ih hnil, join_cons hnil, List.append_assoc,
        List.cons_append]

theorem join_concat (hg : g ≠ []) (line : Bytes) :
    join (g ++ [line]) = join g ++ newline :: line := by
  rw [join_append hg (List.cons_ne_nil line []), join_singleton]

theorem length_join_le (g h : List Bytes) :
    (join g).length ≤ (join (g ++ h)).length ∧ (join h).length ≤ (join (g ++ h)).length := by
  by_cases hg : g = []
  · have hnil : (join []).length = 0 := rfl
    rw [hg, List.nil_append, hnil]
    omega
  · by_cases hh : h = []
    · have hnil : (join []).length = 0 := rfl
      rw [hh, List.append_nil, hnil]
      omega
    · rw [join_append hg hh, List.length_append, List.length_cons]
      omega

theorem fits_hereditary (limit : ℕ) : Hereditary (Fits limit) := by
  have hempty : Fits limit [] := Or.inl (Nat.zero_le limit)
  have parts : ∀ {a b}, Fits limit (a ++ b) → Fits limit a ∧ Fits limit b := by
    intro a b hab
    have hlen := length_join_le a b
    rcases hab with hle | hone
    · exact ⟨Or.inl (by omega), Or.inl (by omega)⟩
    · rw [List.length_append] at hone
      by_cases ha : a = []
      · rw [ha] at hone ⊢
        exact ⟨hempty, Or.inr (by rwa [List.length_nil, Nat.zero_add] at hone)⟩
      · have hpos := List.length_pos_iff.mpr ha
        have hb : b = [] := List.length_eq_zero_iff.mp (by omega)
        exact ⟨Or.inr (by omega), hb ▸ hempty⟩
  exact ⟨fun h => (parts h).1, fun h => (parts h).2⟩

theorem fits_concat_iff {limit : ℕ} (hg : g ≠ []) (line : Bytes) :
    Fits limit (g ++ [line]) ↔ ¬ limit < (join g).length + 1 + line.length := by
  have hpos := List.length_pos_iff.mpr hg
  have hlen : (join (g ++ [line])).length = (join g).length + 1 + line.length := by
    rw [join_concat hg, List.length_append, List.length_cons]
    omega
  unfold Fits
  rw [hlen, List.length_append, List.length_singleton]
  omega

theorem join_ne_nil (hg : g ≠ []) (hne : ∀ l ∈ g, l ≠ []) : join g ≠ [] := by
  cases g with
  | nil => exact absurd rfl hg
  | cons l g =>
    have hl : l ≠ [] := hne l List.mem_cons_self
    by_cases hnil : g = []
    · rw [hnil, join_singleton]
      exact hl
    · rw [join_cons hnil]
      exact List.append_ne_nil_of_left_ne_nil hl _

section Refinement

variable {maxBytes : UInt64} {g : List Bytes} {sent : List Bytes}

theorem flushBatch_join (hg : g ≠ []) (hne : ∀ l ∈ g, l ≠ []) :
    flushBatch ⟨join g, sent⟩ = ⟨[], sent ++ [join g]⟩ := by
  have hlen : (join g).length ≠ 0 := by
    rw [ne_eq, List.length_eq_zero_iff]
    exact join_ne_nil hg hne
  rw [flushBatch, if_neg hlen]

theorem appendBatchLine_empty (line : Bytes) :
    appendBatchLine maxBytes ⟨[], sent⟩ line = ⟨join [line], sent⟩ := by
  rw [appendBatchLine, if_pos List.length_nil, List.nil_append, join_singleton]

theorem appendBatchLine_join (hg : g ≠ []) (hne : ∀ l ∈ g, l ≠ []) (line : Bytes) :
    appendBatchLine maxBytes ⟨join g, sent⟩ line =
      if Fits maxBytes.toNat (g ++ [line]) then ⟨join (g ++ [line]), sent⟩
      else ⟨join [line], sent ++ [join g]⟩ := by
  have hlen : (join g).length ≠ 0 := by
    rw [ne_eq, List.length_eq_zero_iff]
    exact join_ne_nil hg hne
  rw [appendBatchLine, if_neg hlen]
  by_cases hfit : Fits maxBytes.toNat (g ++ [line])
  · rw [if_pos hfit, if_neg ((fits_concat_iff hg line).mp hfit), join_concat hg,
      List.append_assoc, List.singleton_append]
  · have hover : maxBytes.toNat < (join g).length + 1 + line.length := by
      by_contra h
      exact hfit ((fits_concat_iff hg line).mpr h)
    simp only [if_neg hfit, if_pos hover, flushBatch_join hg hne, List.nil_append, join_singleton]

theorem foldl_appendBatchLine (lines : List Bytes) (hg : g ≠ []) (hne : ∀ l ∈ g, l ≠ [])
    (hlines : ∀ l ∈ lines, l ≠ []) :
    (flushBatch (lines.foldl (appendBatchLine maxBytes) ⟨join g, sent⟩)).sent =
      sent ++ (greedy (Fits maxBytes.toNat) g lines).map join := by
  induction lines generalizing g sent with
  | nil =>
    rw [List.foldl_nil, flushBatch_join hg hne, greedy_nil hg, List.map_singleton]
  | cons line lines ih =>
    have hline : line ≠ [] := hlines line List.mem_cons_self
    have htail : ∀ l ∈ lines, l ≠ [] := fun l hl => hlines l (List.mem_cons_of_mem line hl)
    have hone : ∀ l ∈ [line], l ≠ [] := fun l hl => List.mem_singleton.mp hl ▸ hline
    rw [List.foldl_cons, appendBatchLine_join hg hne, greedy_cons hg]
    by_cases hfit : Fits maxBytes.toNat (g ++ [line])
    · rw [if_pos hfit, if_pos hfit]
      have hall : ∀ l ∈ g ++ [line], l ≠ [] := by
        intro l hl
        rcases List.mem_append.mp hl with h | h
        · exact hne l h
        · exact hone l h
      exact ih (List.append_ne_nil_of_right_ne_nil g (List.cons_ne_nil line [])) hall htail
    · rw [if_neg hfit, if_neg hfit, ih (List.cons_ne_nil line []) hone htail, List.map_cons,
        List.append_assoc, List.singleton_append]

end Refinement

theorem submit_eq_greedy (maxBytes : UInt64) {lines : List Bytes} (hlines : ∀ l ∈ lines, l ≠ []) :
    submit maxBytes lines = (greedy (Fits maxBytes.toNat) [] lines).map join := by
  cases lines with
  | nil => rfl
  | cons line lines =>
    have hline : line ≠ [] := hlines line List.mem_cons_self
    have htail : ∀ l ∈ lines, l ≠ [] := fun l hl => hlines l (List.mem_cons_of_mem line hl)
    have hone : ∀ l ∈ [line], l ≠ [] := fun l hl => List.mem_singleton.mp hl ▸ hline
    rw [submit, List.foldl_cons, appendBatchLine_empty, greedy_nil_cons,
      foldl_appendBatchLine lines (List.cons_ne_nil line []) hone htail, List.nil_append]

theorem greedy_lines (limit : ℕ) (lines : List Bytes) :
    IsGrouping (Fits limit) lines (greedy (Fits limit) [] lines) ∧
    (∀ g ∈ greedy (Fits limit) [] lines, g ≠ []) ∧
    ∀ gs, IsGrouping (Fits limit) lines gs →
      (greedy (Fits limit) [] lines).length ≤ gs.length := by
  cases lines with
  | nil =>
    rw [greedy_nil_nil]
    refine ⟨⟨rfl, ?_⟩, ?_, fun gs _ => Nat.zero_le gs.length⟩
    · intro g hg
      exact absurd hg List.not_mem_nil
    · intro g hg
      exact absurd hg List.not_mem_nil
  | cons line lines =>
    have hne : [line] ≠ [] := List.cons_ne_nil line []
    have hone : ∀ l, Fits limit [l] := fun l => Or.inr rfl
    rw [greedy_nil_cons]
    refine ⟨greedy_isGrouping hone lines hne (hone line), greedy_ne_nil lines hne, ?_⟩
    intro gs hgs
    exact greedy_length_le (fits_hereditary limit) lines hne hgs

theorem splitOn_join (hg : g ≠ []) (hnl : ∀ l ∈ g, newline ∉ l) : (join g).splitOn newline = g := by
  exact List.splitOn_intercalate newline hnl hg

theorem flatMap_splitOn_join {gs : List (List Bytes)} (hgs : ∀ g ∈ gs, g ≠ [])
    (hnl : ∀ g ∈ gs, ∀ l ∈ g, newline ∉ l) :
    (gs.map join).flatMap (List.splitOn newline) = gs.flatten := by
  induction gs with
  | nil => rfl
  | cons g gs ih =>
    have hhead : (join g).splitOn newline = g :=
      splitOn_join (hgs g List.mem_cons_self) (hnl g List.mem_cons_self)
    have htail := ih (fun g' h => hgs g' (List.mem_cons_of_mem g h))
      (fun g' h => hnl g' (List.mem_cons_of_mem g h))
    rw [List.map_cons, List.flatMap_cons, htail, hhead, List.flatten_cons]

/-- Over all non-empty lines without a newline and every limit: the datagrams give the lines back,
each is within the limit or one line alone, and no other grouping of the lines needs fewer. -/
theorem submit_packs (maxBytes : UInt64) (lines : List Bytes) (hne : ∀ l ∈ lines, l ≠ [])
    (hnl : ∀ l ∈ lines, newline ∉ l) :
    (submit maxBytes lines).flatMap (List.splitOn newline) = lines ∧
    (∀ d ∈ submit maxBytes lines,
      d.length ≤ maxBytes.toNat ∨ (d ∈ lines ∧ maxBytes.toNat < d.length)) ∧
    ∀ gs : List (List Bytes), gs.flatten = lines →
      (∀ g ∈ gs, (join g).length ≤ maxBytes.toNat ∨ g.length = 1) →
      (submit maxBytes lines).length ≤ gs.length := by
  obtain ⟨hgroups, hgne, hmin⟩ := greedy_lines maxBytes.toNat lines
  have hmem : ∀ g ∈ greedy (Fits maxBytes.toNat) [] lines, ∀ l ∈ g, l ∈ lines := by
    intro g hg l hl
    have hflat : l ∈ (greedy (Fits maxBytes.toNat) [] lines).flatten :=
      List.mem_flatten.mpr ⟨g, hg, hl⟩
    rwa [hgroups.flatten_eq] at hflat
  rw [submit_eq_greedy maxBytes hne]
  refine ⟨?_, ?_, ?_⟩
  · rw [flatMap_splitOn_join hgne (fun g hg l hl => hnl l (hmem g hg l hl)), hgroups.flatten_eq]
  · intro d hd
    obtain ⟨g, hg, rfl⟩ := List.mem_map.mp hd
    by_cases hle : (join g).length ≤ maxBytes.toNat
    · exact Or.inl hle
    · have hone : g.length = 1 := (hgroups.all_ok g hg).resolve_left hle
      obtain ⟨l, rfl⟩ := List.length_eq_one_iff.mp hone
      rw [join_singleton] at hle ⊢
      exact Or.inr ⟨hmem [l] hg l List.mem_cons_self, by omega⟩
  · intro gs hflat hfits
    rw [List.length_map]
    exact hmin gs ⟨hflat, hfits⟩

/-- The lines `ab`, `c` and `defgh` under a limit of 4: the first two share a datagram, and the
longer one goes alone. -/
theorem submit_packs_three :
    submit 4 [[97, 98], [99], [100, 101, 102, 103, 104]] =
      [[97, 98, 10, 99], [100, 101, 102, 103, 104]] ∧
    (submit 4 [[97, 98], [99], [100, 101, 102, 103, 104]]).flatMap (List.splitOn newline) =
      [[97, 98], [99], [100, 101, 102, 103, 104]] :=
  ⟨by decide, (submit_packs 4 [[97, 98], [99], [100, 101, 102, 103, 104]] (by decide)
    (by decide)).1⟩

end EnvoyGo.DatagramBatch
