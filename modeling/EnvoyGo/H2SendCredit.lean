import EnvoyGo.H2RapidReset
import EnvoyGo.H2ResetFinality
import EnvoyGo.H2SendFrames

/-!
What a downstream connection may send: on each stream within the peer's window, on the connection
within its own, and no frame above the peer's size.
-/

namespace EnvoyGo.H2

open Runs

def Frame.params? : Frame → Option (List Setting)
  | .settings false params => some params
  | _ => none

namespace ServerConn

variable {δ : Type} {dec : BlockDecoder δ}

/-- A lower window leaves no stream in debt that a call holds a part of, and a lower frame size is
no less than any call asks for. -/
def SettingSafe (s : ServerConn δ) (st : Setting) : Prop :=
  (st.id = .initialWindowSize → s.windowDelta st < 0 → s.walkFits (s.windowDelta st) ∧
    ∀ id ∈ s.streams, s.heldOn id = 0 ∨ 0 ≤ (s.sendWindow id).n + s.windowDelta st) ∧
  (st.id = .maxFrameSize → ∀ k < s.writers, ∀ w ∈ s.writer k, Writer.want w ≤ st.val)

instance (s : ServerConn δ) (st : Setting) : Decidable (s.SettingSafe st) :=
  inferInstanceAs (Decidable (_ ∧ _))

def SettingsSafe (s : ServerConn δ) : List Setting → Prop
  | [] => True
  | st :: rest => s.SettingSafe st ∧ (s.applySetting st).1.SettingsSafe rest

instance decidableSettingsSafe (s : ServerConn δ) : ∀ params, Decidable (s.SettingsSafe params)
  | [] => isTrue trivial
  | st :: rest =>
    have := decidableSettingsSafe (s.applySetting st).1 rest
    inferInstanceAs (Decidable (s.SettingSafe st ∧ (s.applySetting st).1.SettingsSafe rest))

/-- Bodies are shorter than 2^31, and accepted SETTINGS are safe for what is under way. -/
def SendsSafely (s : ServerConn δ) (e : Event) : Prop :=
  e.Short ∧ ∀ f ∈ e.frame?, s.Takes f → ∀ params ∈ f.params?,
    params.findSome? validateSetting = none → s.SettingsSafe params

instance (s : ServerConn δ) (e : Event) : Decidable (s.SendsSafely e) :=
  inferInstanceAs (Decidable (_ ∧ _))

structure Solid (p : ServerConn δ × List (ℕ × ℤ)) : Prop where
  valid : p.1.clientS.Valid
  run : WritersRun p.1
  kept : p.1.book.Kept
  sound : SoundWriters p.1
  capped : ∀ k w, p.1.writer k = some w → Writer.want w ≤ p.1.clientS.effectiveMaxFrame
  objects : ∀ id ∈ p.1.streams, id ≠ 0 ∧ p.1.stream id ≠ none
  unsent : ∀ id ∉ p.1.launched, dataBytesOn id p.1.wire = 0
  uncredited : ∀ id, id ≠ 0 → p.1.lastInID < id → creditOn id p.2 = 0
  streams : ∀ id ∈ p.1.streams, (p.1.streamAccount id (creditOn id p.2)).Solvent
  conn : (p.1.connAccount (creditOn 0 p.2)).Solvent
  paid : dataBytes p.1.wire ≤ 65535 + creditOn 0 p.2

variable {s t : ServerConn δ} {j : ℕ} {cs : List (ℕ × ℤ)}

theorem applySetting_object (st : Setting) (h : s.stream j ≠ none) :
    (s.applySetting st).1.stream j ≠ none := by
  obtain ⟨ss, hss⟩ := Option.ne_none_iff_exists'.mp h
  unfold applySetting
  cases st.id with
  | initialWindowSize =>
    simp only []
    generalize wrap32 _ = delta
    split_ifs
    · exact h
    · simp only [walkStreams, hss, Option.map_some]
      split_ifs <;> simp
    · exact h
  | _ => exact h

theorem applySettings_cons (s : ServerConn δ) (err : Option Error) (st : Setting)
    (rest : List Setting) : ∃ err', (s.applySettings err (st :: rest)).1 =
      ((s.applySetting st).1.applySettings err' rest).1 := by
  conv => enter [1, err', 1]; unfold applySettings
  split
  · rename_i s' hs'
    rw [hs']
    exact ⟨err, rfl⟩
  · rename_i s' e hs'
    rw [hs']
    exact ⟨some e, rfl⟩

theorem solvent_applySettings (params : List Setting) (err : Option Error) (hv : s.clientS.Valid)
    (hvalid : ∀ st ∈ params, validateSetting st = none) (hsafe : s.SettingsSafe params)
    (hmem : j ∈ s.streams) (hobj : s.stream j ≠ none) {c : ℤ} (h : (s.streamAccount j c).Solvent) :
    ((s.applySettings err params).1.streamAccount j c).Solvent := by
  induction params generalizing s err with
  | nil => exact h
  | cons st rest ih =>
    obtain ⟨err', heq⟩ := applySettings_cons s err st rest
    obtain ⟨⟨hlow, -⟩, hrest⟩ := hsafe
    have hst := hvalid st List.mem_cons_self
    have hid (hne : s.windowDelta st ≠ 0) : st.id = .initialWindowSize := by
      by_contra hid
      exact hne (if_neg hid)
    obtain ⟨objects, cs, table, hparts⟩ := applySetting_parts s st
    rw [heq]
    refine ih err' (valid_applySetting hv hst) (fun x hx => hvalid x (List.mem_cons_of_mem _ hx))
      hrest (by rw [hparts]; exact hmem) (applySetting_object st hobj) ?_
    rcases streamAccount_applySetting hv hst j c with ⟨-, hacc⟩ | ⟨hne, -, -, hen, hacc⟩ |
      ⟨hne, hwalk, hacc⟩
    · rw [hacc]
      exact h
    · rw [hacc]
      refine h.apply hen ?_
      intro hneg
      exact (hlow (hid hne) hneg).2 j hmem
    · rw [hacc]
      refine h.apply trivial ?_
      change 0 ≤ s.windowDelta st
      by_contra hneg
      exact hwalk hmem hobj (hlow (hid hne) (not_le.mp hneg)).1

theorem valid_applySettings (params : List Setting) (err : Option Error) (hv : s.clientS.Valid)
    (hvalid : ∀ st ∈ params, validateSetting st = none) :
    (s.applySettings err params).1.clientS.Valid := by
  induction params generalizing s err with
  | nil => exact hv
  | cons st rest ih =>
    obtain ⟨err', heq⟩ := applySettings_cons s err st rest
    rw [heq]
    exact ih err' (valid_applySetting hv (hvalid st List.mem_cons_self))
      (fun x hx => hvalid x (List.mem_cons_of_mem _ hx))

theorem effectiveMaxFrame_applySetting (s : ServerConn δ) {st : Setting}
    (hst : validateSetting st = none) :
    (s.applySetting st).1.clientS.effectiveMaxFrame = s.clientS.effectiveMaxFrame ∨
      st.id = .maxFrameSize ∧ (s.applySetting st).1.clientS.effectiveMaxFrame = st.val := by
  have hcongr {cs : ClientSettings} (h : cs.maxFrameSize = s.clientS.maxFrameSize) :
      cs.effectiveMaxFrame = s.clientS.effectiveMaxFrame := by
    unfold ClientSettings.effectiveMaxFrame
    rw [h]
  unfold applySetting
  cases hid : st.id with
  | maxFrameSize =>
    right
    refine ⟨rfl, ?_⟩
    have hval : 16384 ≤ st.val ∧ st.val ≤ 16777215 := by
      unfold validateSetting at hst
      simp only [hid] at hst
      split_ifs at hst with h
      push Not at h
      exact h
    have hwrap : wrap32 (st.val : ℤ) = st.val :=
      wrap32_of_range (by omega) (by unfold maxInt32; omega)
    unfold ClientSettings.effectiveMaxFrame
    simp only [hwrap]
    exact if_neg (by omega)
  | initialWindowSize =>
    left
    simp only []
    generalize wrap32 _ = delta
    split_ifs
    all_goals exact hcongr rfl
  | _ => exact .inl (hcongr rfl)

theorem capped_applySettings (params : List Setting) (err : Option Error)
    (hvalid : ∀ st ∈ params, validateSetting st = none) (hrun : WritersRun s)
    (hsafe : s.SettingsSafe params) {k : ℕ} {w : Writer} (hw : s.writer k = some w)
    (h : Writer.want w ≤ s.clientS.effectiveMaxFrame) :
    Writer.want w ≤ (s.applySettings err params).1.clientS.effectiveMaxFrame := by
  induction params generalizing s err with
  | nil => exact h
  | cons st rest ih =>
    obtain ⟨err', heq⟩ := applySettings_cons s err st rest
    obtain ⟨⟨-, hframe⟩, hrest⟩ := hsafe
    have hsilent := silent_applySetting s st
    have hrun' : WritersRun (s.applySetting st).1 := hrun.of_running hsilent.writer
      hsilent.writers (fun id hid => hsilent.running ▸ hid)
    have hw' : (s.applySetting st).1.writer k = some w := by
      rw [hsilent.writer]
      exact hw
    rw [heq]
    refine ih err' (fun x hx => hvalid x (List.mem_cons_of_mem _ hx)) hrun' hrest hw' ?_
    rcases effectiveMaxFrame_applySetting s (hvalid st List.mem_cons_self) with hsame |
      ⟨hid, hval⟩
    · rw [hsame]
      exact h
    · rw [hval]
      exact hframe hid k (hrun k w hw).1 w hw

theorem lastInID_le (dec : BlockDecoder δ) (s : ServerConn δ) (e : Event) :
    s.lastInID ≤ (step dec s e).lastInID := by
  rcases step_book dec s e with hs | ⟨id, code, -, -, hs⟩
  · exact AdmissionBook.steps_last_le hs
  · exact (congrArg AdmissionBook.last hs).ge

theorem launched_le (h : s.book.Kept) {id : ℕ} (hid : id ∈ s.launched) : id ≤ s.lastInID :=
  h.jobs_le id (List.mem_append_left _ hid)

theorem unsent_step (dec : BlockDecoder δ) (e : Event) (hrun : WritersRun s) (hkept : s.book.Kept)
    (h : ∀ id ∉ s.launched, dataBytesOn id s.wire = 0) :
    ∀ id ∉ (step dec s e).launched, dataBytesOn id (step dec s e).wire = 0 := by
  intro id hid
  obtain ⟨⟨new, hwire, hresponse⟩, more, hlaunched, -⟩ := grows_step dec s e hrun
  have hold : id ∉ s.launched := by
    intro hmem
    rw [hlaunched] at hid
    exact hid (List.mem_append_left _ hmem)
  have hnew : dataBytesOn id new = 0 := by
    refine List.sum_eq_zero ?_
    intro x hx
    obtain ⟨f, hf, rfl⟩ := List.mem_map.mp hx
    cases f with
    | data j length last =>
      have hother : j ≠ id := by
        rintro rfl
        exact hold (hkept.running_launched j (hresponse _ hf j rfl))
      exact if_neg hother
    | _ => rfl
  rw [hwire, dataBytesOn_append, h id hold, hnew, add_zero]

theorem heldOn_eq_zero (hrun : WritersRun s) (hkept : s.book.Kept) {id : ℕ}
    (hid : s.lastInID < id) : s.heldOn id = 0 := by
  unfold heldOn holdings Tally.tally
  refine Finset.sum_eq_zero ?_
  intro k _
  cases hw : s.writer k with
  | none => rfl
  | some w =>
    have hle := launched_le hkept (hkept.running_launched _ (hrun k w hw).2)
    have hother : w.stream ≠ id := by
      intro heq
      omega
    exact if_neg hother

theorem solvent_opened {eff : ℤ} (hlo : 0 ≤ eff) (hhi : eff ≤ maxInt32) :
    (CreditAccount.mk (Window.new eff) 0 0 0 (eff + 0)).Solvent := by
  have hn : (Window.new eff).n = eff := wrap32_of_range (by omega) hhi
  refine ⟨Window.new_inRange eff, le_rfl, le_rfl, ?_, ?_⟩
  · change (Window.new eff).n + 0 + 0 + 0 ≤ eff + 0
    omega
  · intro h
    change (0 : ℤ) < 0 at h
    omega

theorem solvent_frame {f : Frame} (h : Solid (s, cs)) (hok : s.SendsSafely (.frame f))
    (hj : j ≠ 0) (hobj : (step dec s (.frame f)).stream j ≠ none)
    (hmem : j ∈ (step dec s (.frame f)).streams) :
    ((step dec s (.frame f)).streamAccount j
      (creditOn j (cs ++ credits dec s (.frame f)))).Solvent := by
  rw [creditOn_append]
  cases frame_effect dec s f hj hobj with
  | same hlive hold hcredit hclient hacc =>
    rw [hcredit, add_zero, hacc]
    exact h.streams j (hlive hmem)
  | credited increment hlive hold htakes hf hin hfits hcredit hclient hacc =>
    rw [hcredit, hacc]
    exact (h.streams j hin).apply (Int.natCast_nonneg _) trivial
  | configured params hlive hold htakes hf hvalid hcredit hclient hacc =>
    rw [hcredit, add_zero, hacc]
    have hsafe : s.SettingsSafe params := by
      subst hf
      exact hok.2 _ rfl htakes params rfl (List.findSome?_eq_none_iff.mpr hvalid)
    exact solvent_applySettings params none h.valid hvalid hsafe (hlive hmem) hold
      (h.streams j (hlive hmem))
  | opened a htakes ha ho heq hcredit hclient hacc =>
    obtain ⟨hlo, hhi⟩ := h.valid.effectiveInitialWindow
    have hlast : s.lastInID < j := by
      rw [heq]
      exact ho.2.2.2.2.2.1
    have hunsent : dataBytesOn j s.wire = 0 := by
      refine h.unsent j ?_
      intro hlaunched
      exact absurd (launched_le h.kept hlaunched) (not_le.mpr hlast)
    have hcredits : creditOn j cs = 0 := h.uncredited j hj hlast
    rw [hcredit, hcredits, hacc, hunsent, heldOn_eq_zero h.run h.kept hlast, add_zero]
    exact solvent_opened hlo hhi

theorem setStream_object (s : ServerConn δ) (id : ℕ) (ss : ServerStream)
    (h : s.stream j ≠ none ∨ j = id) : (s.setStream id ss).stream j ≠ none := by
  change Function.update s.stream id (some ss) j ≠ none
  by_cases hj : j = id
  · rw [hj, Function.update_self]
    exact Option.some_ne_none ss
  · rw [Function.update_of_ne hj]
    exact h.resolve_right hj

theorem closeStream_object (s : ServerConn δ) (id : ℕ) (h : s.stream j ≠ none) :
    (s.closeStream id).stream j ≠ none := by
  unfold closeStream
  cases s.stream id with
  | none => exact h
  | some ss => exact setStream_object s id _ (.inl h)

theorem applySettings_object (params : List Setting) (err : Option Error) (h : s.stream j ≠ none) :
    (s.applySettings err params).1.stream j ≠ none := by
  induction params generalizing s err with
  | nil => exact h
  | cons st rest ih =>
    obtain ⟨err', heq⟩ := applySettings_cons s err st rest
    rw [heq]
    exact ih err' (applySetting_object st h)

theorem Handled.object {f : Frame} {err : Option Error} (hh : Handled dec s f (t, err))
    (h : s.stream j ≠ none ∨ ∃ a, s.completedBlock f = some a ∧ (dec s.hpack a.buf).isSome ∧
      s.Opens a ∧ a.stream = j ∧ j ∈ t.streams ∧ j ∉ s.streams) : t.stream j ≠ none := by
  have hlive : ∀ id ∈ s.live, id ∈ s.streams := fun id hid => (Finset.mem_sdiff.mp hid).1
  have hold (hin : j ∈ t.streams → j ∈ s.streams) : s.stream j ≠ none := by
    rcases h with h | ⟨a, -, -, -, -, hmem, hnot⟩
    · exact h
    · exact absurd (hin hmem) hnot
  cases hh with
  | aside t ht hpack acc goaway err =>
    rcases ht with rfl | rfl
    · exact hold (fun hj => hj)
    · exact hold (hlive j)
  | opened a headers hpack acc ha hdec ho =>
    unfold openStream
    simp only []
    rw [(queueIf_parts _ _ _).1]
    refine setStream_object _ _ _ ?_
    rcases h with h | ⟨b, hb, -, -, hj, -⟩
    · exact .inl h
    · cases ha.symm.trans hb
      exact .inr hj.symm
  | trailed a headers hpack acc ss ha hdec hmem hss hst hend hnames =>
    exact setStream_object _ _ _ (.inl (hold (hlive j)))
  | accepted id payload padding endStream ss ss' hf hmem hss hrecv =>
    obtain ⟨w, d, upd, ss'', -, -, -, -, heq⟩ :=
      acceptData_parts s.drainDone id ss' payload.length endStream
    rw [heq] at hold ⊢
    rw [(queueIf_parts _ endStream id).2] at hold
    rw [(queueIf_parts _ endStream id).1]
    exact setStream_object _ _ _ (.inl (hold (hlive j)))
  | configured params t err hf hvalid happly =>
    have happ : (if err = none then t.write .settingsAck else t).streams = s.streams :=
      congrArg AdmissionBook.entries (book_applySettings_write s params happly)
    rw [happ] at hold
    have hobj := applySettings_object params none (hold (fun hj => hj))
    rw [happly] at hobj
    split_ifs
    all_goals exact hobj
  | ponged => exact hold (fun hj => hj)
  | credited id increment hf hfits => exact hold (fun hj => hj)
  | removed id code hf hmem =>
    refine closeStream_object _ id (hold ?_)
    intro hj
    obtain ⟨objects, hclose⟩ := closeStream_parts ({ s with
      streams := s.streams.erase id
      closedStreams := insert id s.closedStreams } : ServerConn δ) id
    rw [hclose] at hj
    exact Finset.mem_of_mem_erase hj

theorem objects_frame (dec : BlockDecoder δ) (f : Frame)
    (h : ∀ id ∈ s.streams, id ≠ 0 ∧ s.stream id ≠ none) :
    ∀ j ∈ (step dec s (.frame f)).streams, j ≠ 0 ∧ (step dec s (.frame f)).stream j ≠ none := by
  intro j hj
  by_cases htakes : s.Takes f
  · rw [step_frame_taken htakes] at hj ⊢
    have hh := dispatchFrame_handled dec s f
    revert hj hh
    rcases s.dispatchFrame dec f with ⟨t, err⟩
    obtain ⟨-, hstream, hstreams⟩ := sameAccounts_answer t err
    rw [hstream, hstreams]
    intro hj hh
    by_cases hin : j ∈ s.streams
    · exact ⟨(h j hin).1, hh.object (.inl (h j hin).2)⟩
    · rcases hh.streams hj with hold | ⟨a, ha, hdec, ho, heq⟩
      · exact absurd hold hin
      · have hodd := ho.2.2.2.2.1
        refine ⟨?_, hh.object (.inr ⟨a, ha, hdec, ho, heq, hj, hin⟩)⟩
        rintro rfl
        rw [heq] at hodd
        exact hodd rfl
  · rcases step_frame_untaken dec htakes with hs | ⟨code, hs⟩ | ⟨code, hs⟩
    all_goals
      rw [hs] at hj ⊢
      exact h j hj

theorem Local.object (h : Local s t) (j : ℕ) : t.stream j ≠ none ↔ s.stream j ≠ none := by
  have hrecv := h.recv j
  cases hs : s.stream j with
  | none =>
    rw [hs, Option.map_none, Option.map_eq_none_iff] at hrecv
    rw [hrecv]
  | some ss =>
    rw [hs, Option.map_some] at hrecv
    obtain ⟨ss', hss', -⟩ := Option.map_eq_some_iff.mp hrecv
    rw [hss']
    simp

theorem credits_local (dec : BlockDecoder δ) (s : ServerConn δ) {e : Event}
    (he : e.frame? = none) : credits dec s e = [] := by
  unfold credits
  rw [he]

theorem uncredited_step (dec : BlockDecoder δ) (e : Event) (hkept : s.book.Kept)
    (h : ∀ id, id ≠ 0 → s.lastInID < id → creditOn id cs = 0) :
    ∀ id, id ≠ 0 → (step dec s e).lastInID < id → creditOn id (cs ++ credits dec s e) = 0 := by
  intro id hid hlast
  have hlast' : s.lastInID < id := (lastInID_le dec s e).trans_lt hlast
  rw [creditOn_append, h id hid hlast', zero_add]
  cases e with
  | frame f =>
    by_cases htakes : s.Takes f
    · have hh := dispatchFrame_handled dec s f
      rcases hr : s.dispatchFrame dec f with ⟨t, err⟩
      rw [hr] at hh
      rw [credits_taken htakes hr, creditOn_toList, dueOn]
      rcases hh.adding with hadd | ⟨j, increment, hf, -, hadd⟩
      · rw [hadd, htakes.2.1]
        rfl
      · by_cases hj : j = id
        · subst hj hf
          simp only [dispatchFrame, onWindowUpdate, hid, if_false] at hr
          have hin : j ∉ s.streams := by
            intro hin
            exact absurd (hkept.entries_le j hin) (not_le.mpr hlast')
          rw [if_neg hin, if_pos hlast'] at hr
          cases hr
          rw [htakes.2.1] at hadd
          cases hadd
        · rw [hadd]
          exact if_neg hj
    · rw [credits_untaken dec htakes]
      rfl
  | _ =>
    rw [credits_local dec s rfl]
    rfl

theorem capped_step (dec : BlockDecoder δ) {e : Event} (h : Solid (s, cs)) (hok : s.SendsSafely e) :
    ∀ k w, (step dec s e).writer k = some w →
      Writer.want w ≤ (step dec s e).clientS.effectiveMaxFrame := by
  intro k w hw
  by_cases he : e.frame? = none
  · rw [(local_step dec s he).clientS]
    cases writer_from dec s e k w hw with
    | same hold => exact h.capped k w hold
    | advanced v hv ha => exact (want_advance_le (h.sound k v hv) ha).trans (h.capped k v hv)
    | started id len endStream heq hlen hnew =>
      subst hnew
      unfold Writer.want
      simp only []
      split_ifs with hbig
      · exact le_rfl
      · exact not_lt.mp hbig
  · cases e with
    | frame f =>
      rw [(frame_writers dec s f).1] at hw
      rcases frame_clientS dec s f with hsame | ⟨params, htakes, hf, hvalid, hnew⟩
      · rw [hsame]
        exact h.capped k w hw
      · rw [hnew]
        have hall := List.findSome?_eq_none_iff.mp hvalid
        subst hf
        exact capped_applySettings params none hall h.run
          (hok.2 _ rfl htakes params rfl hvalid) hw (h.capped k w hw)
    | _ => exact absurd rfl he

theorem solid_step (p : ServerConn δ × List (ℕ × ℤ)) (e : Event) (hok : p.1.SendsSafely e)
    (h : Solid p) : Solid (watch (step dec) (credits dec) p e) := by
  obtain ⟨s, cs⟩ := p
  change Solid (step dec s e, cs ++ credits dec s e)
  have hrun := writersRun_step dec s e h.run
  have hkept : (step dec s e).book.Kept := kept_step e h.kept
  have hsound := soundWriters_step dec hok.1 h.sound
  have hcapped := capped_step dec h hok
  have hunsent := unsent_step dec e h.run h.kept h.unsent
  have huncredited := uncredited_step dec e h.kept h.uncredited
  by_cases he : e.frame? = none
  · have hlocal := local_step dec s he
    have hmoves := moves_step dec h.run h.sound he
    have hobjects : ∀ id ∈ (step dec s e).streams, id ≠ 0 ∧ (step dec s e).stream id ≠ none := by
      intro id hid
      rw [hlocal.streams] at hid
      exact ⟨(h.objects id hid).1, (hlocal.object id).mpr (h.objects id hid).2⟩
    refine ⟨?_, hrun, hkept, hsound, hcapped, hobjects, hunsent, huncredited, ?_, ?_, ?_⟩
    · change (step dec s e).clientS.Valid
      rw [hlocal.clientS]
      exact h.valid
    · intro id hid
      change id ∈ (step dec s e).streams at hid
      change ((step dec s e).streamAccount id (creditOn id (cs ++ credits dec s e))).Solvent
      rw [credits_local dec s he, List.append_nil]
      rw [hlocal.streams] at hid
      obtain ⟨hne, hobj⟩ := h.objects id hid
      exact (h.streams id hid).moves (hmoves.stream id _ hne hobj)
    · change ((step dec s e).connAccount (creditOn 0 (cs ++ credits dec s e))).Solvent
      rw [credits_local dec s he, List.append_nil]
      exact h.conn.moves (hmoves.conn _)
    · change dataBytes (step dec s e).wire ≤ 65535 + creditOn 0 (cs ++ credits dec s e)
      rw [credits_local dec s he, List.append_nil]
      rcases h.conn.moves_spent (hmoves.conn _) with hsame | hle
      · exact hsame.trans_le h.paid
      · exact hle
  · cases e with
    | frame f =>
      have hobjects := objects_frame dec f h.objects
      refine ⟨?_, hrun, hkept, hsound, hcapped, hobjects, hunsent, huncredited, ?_, ?_, ?_⟩
      · change (step dec s (.frame f)).clientS.Valid
        rcases frame_clientS dec s f with hsame | ⟨params, -, -, hvalid, hnew⟩
        · rw [hsame]
          exact h.valid
        · rw [hnew]
          exact valid_applySettings params none h.valid (List.findSome?_eq_none_iff.mp hvalid)
      · intro id hid
        exact solvent_frame h hok (hobjects id hid).1 (hobjects id hid).2 hid
      · change ((step dec s (.frame f)).connAccount
          (creditOn 0 (cs ++ credits dec s (.frame f)))).Solvent
        rw [creditOn_append]
        rcases frame_conn dec s f with ⟨hcredit, hacc⟩ | ⟨increment, -, -, -, hcredit, hacc⟩
        · rw [hcredit, add_zero, hacc]
          exact h.conn
        · rw [hcredit, hacc]
          exact h.conn.apply (Int.natCast_nonneg _) trivial
      · change dataBytes (step dec s (.frame f)).wire ≤
          65535 + creditOn 0 (cs ++ credits dec s (.frame f))
        have hpaid := h.paid
        change dataBytes s.wire ≤ 65535 + creditOn 0 cs at hpaid
        rw [creditOn_append]
        rcases frame_conn dec s f with ⟨hcredit, hacc⟩ | ⟨increment, -, -, -, hcredit, hacc⟩
        · have hspent : dataBytes (step dec s (.frame f)).wire = dataBytes s.wire :=
            congrArg CreditAccount.spent (hacc 0)
          omega
        · have hspent : dataBytes (step dec s (.frame f)).wire = dataBytes s.wire :=
            congrArg CreditAccount.spent (hacc 0)
          omega
    | _ => exact absurd rfl he

theorem spent_step {e : Event} (h : Solid (s, cs)) {id : ℕ} (hid : id ∈ (step dec s e).streams) :
    (id ∈ s.streams ∧ dataBytesOn id (step dec s e).wire = dataBytesOn id s.wire) ∨
      dataBytesOn id (step dec s e).wire ≤ (step dec s e).clientS.effectiveInitialWindow +
        creditOn id (cs ++ credits dec s e) := by
  by_cases he : e.frame? = none
  · have hlocal := local_step dec s he
    rw [hlocal.streams] at hid
    obtain ⟨hne, hobj⟩ := h.objects id hid
    have hmoves := (moves_step dec h.run h.sound he).stream id (creditOn id cs) hne hobj
    rw [credits_local dec s he, List.append_nil]
    rcases (h.streams id hid).moves_spent hmoves with hsame | hle
    · exact .inl ⟨hid, hsame⟩
    · exact .inr hle
  · cases e with
    | frame f =>
      obtain ⟨hne, hobj⟩ := objects_frame dec f h.objects id hid
      cases frame_effect dec s f hne hobj with
      | same hlive hold hcredit hclient hacc =>
        exact .inl ⟨hlive hid, congrArg CreditAccount.spent (hacc 0)⟩
      | credited increment hlive hold htakes hf hin hfits hcredit hclient hacc =>
        exact .inl ⟨hlive hid, congrArg CreditAccount.spent (hacc 0)⟩
      | configured params hlive hold htakes hf hvalid hcredit hclient hacc =>
        refine .inl ⟨hlive hid, ?_⟩
        have hspent := congrArg CreditAccount.spent (hacc 0)
        obtain ⟨objects, cs', table, heq, -⟩ := applySettings_parts s none params
        rw [heq] at hspent
        exact hspent
      | opened a htakes ha ho heq hcredit hclient hacc =>
        right
        have hspent := congrArg CreditAccount.spent (hacc 0)
        change dataBytesOn id (step dec s (.frame f)).wire = dataBytesOn id s.wire at hspent
        have hlast : s.lastInID < id := by
          rw [heq]
          exact ho.2.2.2.2.2.1
        have hunsent : dataBytesOn id s.wire = 0 := by
          refine h.unsent id ?_
          intro hlaunched
          exact absurd (launched_le h.kept hlaunched) (not_le.mpr hlast)
        have hcredits : creditOn id cs = 0 := h.uncredited id hne hlast
        rw [hspent, hunsent, hclient, creditOn_append, hcredit, hcredits]
        have hlo := h.valid.effectiveInitialWindow.1
        change 0 ≤ s.clientS.effectiveInitialWindow at hlo
        omega
    | _ => exact absurd rfl he

/-- Frames no longer than a size. -/
def WithinFrame (limit : ℤ) (s t : ServerConn δ) : Prop :=
  ∃ new, t.wire = s.wire ++ new ∧ ∀ f ∈ new, f.dataLength ≤ limit

theorem withinFrame_of_silent {limit : ℤ} (hlimit : 0 < limit)
    (h : ∃ new, t.wire = s.wire ++ new ∧ ∀ f ∈ new, f.responseOn = none) :
    WithinFrame limit s t := by
  obtain ⟨new, hnew, hall⟩ := h
  refine ⟨new, hnew, ?_⟩
  intro f hf
  rw [dataLength_of_responseOn (hall f hf)]
  exact hlimit.le

theorem withinFrame_write {limit : ℤ} {f : WireFrame} (hf : f.dataLength ≤ limit)
    (ht : t.wire = s.wire ++ [f]) : WithinFrame limit s t := by
  refine ⟨[f], ht, ?_⟩
  intro g hg
  rw [List.mem_singleton.mp hg]
  exact hf

theorem closeStream_wire (s : ServerConn δ) (id : ℕ) : (s.closeStream id).wire = s.wire := by
  obtain ⟨objects, heq⟩ := closeStream_parts s id
  rw [heq]

theorem withinFrame_frame (dec : BlockDecoder δ) (s : ServerConn δ) (f : Frame) {limit : ℤ}
    (hlimit : 0 < limit) : WithinFrame limit s (step dec s (.frame f)) := by
  refine withinFrame_of_silent hlimit ?_
  have hself : ∃ new, s.wire = s.wire ++ new ∧ ∀ g ∈ new, g.responseOn = none :=
    ⟨[], (List.append_nil _).symm, fun g hg => by cases hg⟩
  have hgo (t : ServerConn δ) (code : ErrCode) :
      (WireFrame.goaway t.lastInID code).responseOn = none := rfl
  refine frame_induct (P := fun t => ∃ new, t.wire = s.wire ++ new ∧ ∀ g ∈ new,
    g.responseOn = none) hself (fun code => (silent_write s (hgo s code)).wire) (fun _ => hself) ?_
  intro _ t err hh
  have hsilent := hh.silent
  cases err with
  | none => exact hsilent.wire
  | some err =>
    unfold answer
    simp only []
    split_ifs
    · exact (hsilent.trans (silent_write t (hgo t err.code))).wire
    · have hrst : (WireFrame.rstStream err.stream err.code).responseOn = none := rfl
      exact (hsilent.trans (silent_write t hrst)).wire

theorem frame_length_step (dec : BlockDecoder δ) (e : Event) (h : Solid (s, cs)) :
    WithinFrame s.clientS.effectiveMaxFrame s (step dec s e) := by
  have hlimit := effectiveMaxFrame_pos s.clientS
  have same : WithinFrame s.clientS.effectiveMaxFrame s s :=
    ⟨[], (List.append_nil _).symm, fun f hf => by cases hf⟩
  have hsame {t : ServerConn δ} (ht : t.wire = s.wire) :
      WithinFrame s.clientS.effectiveMaxFrame s t := by
    unfold WithinFrame
    rw [ht]
    exact same
  have hlen {k : ℕ} {w : Writer} (hw : s.writer k = some w) (hphase : w.phase = .write)
      (last : Bool) : (WireFrame.data w.stream w.connTaken.toNat last).dataLength ≤
      s.clientS.effectiveMaxFrame := by
    have hpos := ((h.sound k w hw).write hphase).1
    have hwant := ((h.sound k w hw).write hphase).2
    have hcap := h.capped k w hw
    change Writer.want w ≤ s.clientS.effectiveMaxFrame at hcap
    change (w.connTaken.toNat : ℤ) ≤ _
    omega
  refine step_induct (fun f _ => withinFrame_frame dec s f hlimit) same fun t ht => ?_
  cases ht with
  | @headers id _ => exact withinFrame_write (f := .headers id false) hlimit.le rfl
  | @lastHeaders id _ =>
    exact withinFrame_write (f := .headers id true) hlimit.le (closeStream_wire _ id)
  | @lastData id _ =>
    exact withinFrame_write (f := .data id 0 true) hlimit.le (closeStream_wire _ id)
  | @reset id code =>
    exact withinFrame_write (f := .rstStream id code) hlimit.le (closeStream_wire _ id)
  | ended | finished _ _ => exact hsame (closeStream_wire s _)
  | @wroteLast k w hw hphase last =>
    exact withinFrame_write (hlen hw hphase last) (closeStream_wire _ w.stream)
  | wroteAll hw hphase last | wroteSome hw hphase _ last =>
    exact withinFrame_write (hlen hw hphase last) rfl
  | _ => exact same

theorem solid_new (hpack : δ) (settings : ServerSettings)
    (hown : settings.initialWindowSize ≤ 65535) {clientS : ClientSettings} (hv : clientS.Valid) :
    Solid (newServerConn hpack settings clientS, []) := by
  have hwrap : wrap32 (settings.initialWindowSize : ℤ) = settings.initialWindowSize :=
    wrap32_of_range (by omega) (by unfold maxInt32; omega)
  have hn : (newServerConn hpack settings clientS).sendW.n = settings.initialWindowSize := by
    change wrap32 (wrap32 (settings.initialWindowSize : ℤ)) = _
    rw [hwrap, hwrap]
  refine ⟨hv, ?_, kept_new hpack settings clientS, ?_, ?_, ?_, ?_, ?_, ?_, ?_, ?_⟩
  · intro k w hw
    cases hw
  · intro k w hw
    cases hw
  · intro k w hw
    cases hw
  · intro id hid
    cases hid
  · intro id _
    rfl
  · intro id _ _
    rfl
  · intro id hid
    cases hid
  · refine ⟨Window.new_inRange _, le_rfl, le_rfl, ?_, ?_⟩
    · change (newServerConn hpack settings clientS).sendW.n + 0 + 0 + 0 ≤ 65535 + 0
      rw [hn]
      omega
    · intro hheld
      exact absurd hheld (lt_irrefl 0)
  · change (0 : ℤ) ≤ 65535 + 0
    omega

theorem spent_run (dec : BlockDecoder δ) {start : ServerConn δ} (hstart : Solid (start, []))
    (hempty : start.streams = ∅) (es : List Event)
    (hes : StepsMeet (step dec) SendsSafely start es) :
    Solid (es.foldl (watch (step dec) (credits dec)) (start, [])) ∧
      ∀ id ∈ (run dec start es).streams, ∃ earlier later, es = earlier ++ later ∧
        dataBytesOn id (run dec start es).wire = dataBytesOn id (run dec start earlier).wire ∧
        dataBytesOn id (run dec start earlier).wire ≤
          (run dec start earlier).clientS.effectiveInitialWindow +
            creditOn id (earlier.foldl (watch (step dec) (credits dec)) (start, [])).2 := by
  induction es using List.reverseRecOn with
  | nil =>
    refine ⟨hstart, ?_⟩
    intro id hid
    change id ∈ start.streams at hid
    rw [hempty] at hid
    cases hid
  | append_singleton es e ih =>
    obtain ⟨hes', hok, -⟩ := (stepsMeet_append (step dec) SendsSafely es [e]).mp hes
    obtain ⟨hsolid, hspent⟩ := ih hes'
    have hfst : (es.foldl (watch (step dec) (credits dec)) (start, [])).1 = run dec start es :=
      foldl_watch_fst (step dec) (credits dec) es (start, [])
    have hrun : run dec start (es ++ [e]) = step dec (run dec start es) e := by
      simp only [run, List.foldl_append, List.foldl_cons, List.foldl_nil]
    have hwatch : (es ++ [e]).foldl (watch (step dec) (credits dec)) (start, []) =
        watch (step dec) (credits dec)
          (es.foldl (watch (step dec) (credits dec)) (start, [])) e := by
      simp only [List.foldl_append, List.foldl_cons, List.foldl_nil]
    refine ⟨?_, ?_⟩
    · rw [hwatch]
      exact solid_step _ e (hfst ▸ hok) hsolid
    · intro id hid
      rw [hrun] at hid ⊢
      rcases hp : es.foldl (watch (step dec) (credits dec)) (start, []) with ⟨s, cs⟩
      rw [hp] at hsolid hfst hwatch
      change s = run dec start es at hfst
      subst hfst
      rcases spent_step hsolid hid with ⟨hold, hsame⟩ | hle
      · obtain ⟨earlier, later, heq, hbytes, hwithin⟩ := hspent id hold
        refine ⟨earlier, later ++ [e], ?_, hsame.trans hbytes, hwithin⟩
        rw [heq, List.append_assoc]
      · refine ⟨es ++ [e], [], (List.append_nil _).symm, by rw [hrun], ?_⟩
        rw [hwatch, hrun]
        exact hle

/-- In a run of safe steps, whatever is written on a stream of the map was within the peer's window
and its updates when the last of it was written, the connection stays within its own, and no DATA
frame is longer than the peer takes. -/
theorem server_spends_within_credit (dec : BlockDecoder δ) (hpack : δ) (settings : ServerSettings)
    (hown : settings.initialWindowSize ≤ 65535) {params : List Setting} {clientS : ClientSettings}
    (hread : readClientSettings params = .ok clientS) (es : List Event)
    (hes : StepsMeet (step dec) SendsSafely (newServerConn hpack settings clientS) es) :
    let start := newServerConn hpack settings clientS
    let credited (es : List Event) := (es.foldl (watch (step dec) (credits dec)) (start, [])).2
    (∀ id ∈ (run dec start es).streams, ∃ earlier later, es = earlier ++ later ∧
      dataBytesOn id (run dec start es).wire = dataBytesOn id (run dec start earlier).wire ∧
      dataBytesOn id (run dec start earlier).wire ≤
        (run dec start earlier).clientS.effectiveInitialWindow + creditOn id (credited earlier)) ∧
    dataBytes (run dec start es).wire ≤ 65535 + creditOn 0 (credited es) ∧
    ∀ earlier e later, es = earlier ++ e :: later →
      WithinFrame (run dec start earlier).clientS.effectiveMaxFrame (run dec start earlier)
        (step dec (run dec start earlier) e) := by
  intro start credited
  have hstart : Solid (start, []) := solid_new hpack settings hown (readClientSettings_valid hread)
  have hfst (es : List Event) : (es.foldl (watch (step dec) (credits dec)) (start, [])).1 =
      run dec start es :=
    foldl_watch_fst (step dec) (credits dec) es (start, [])
  obtain ⟨hsolid, hspent⟩ := spent_run dec hstart rfl es hes
  refine ⟨hspent, ?_, ?_⟩
  · have hpaid := hsolid.paid
    rw [hfst] at hpaid
    exact hpaid
  · intro earlier e later heq
    rw [heq] at hes
    have hbefore := ((stepsMeet_append (step dec) SendsSafely earlier (e :: later)).mp hes).1
    have hsolid' := (spent_run dec hstart rfl earlier hbefore).1
    rcases hp : earlier.foldl (watch (step dec) (credits dec)) (start, []) with ⟨s, cs⟩
    rw [hp] at hsolid'
    have hs : s = run dec start earlier := by
      rw [← hfst earlier, hp]
    rw [← hs]
    exact frame_length_step dec e hsolid'

/-- The peer closes its window after the response is written. -/
theorem lowered_after_response :
    let es : List Event := [.frame (.headers 1 [] true true none), .flush, .data 1 100 true,
      .reserveStream 0, .reserveConn 0, .chunk 0,
      .frame (.settings false [⟨.initialWindowSize, 0⟩])]
    let start := newServerConn () {} {}
    StepsMeet (step blankDecoder) SendsSafely start es ∧
      (∃ earlier later, es = earlier ++ later ∧
        dataBytesOn 1 (run blankDecoder start es).wire =
          dataBytesOn 1 (run blankDecoder start earlier).wire ∧
        dataBytesOn 1 (run blankDecoder start earlier).wire ≤
          (run blankDecoder start earlier).clientS.effectiveInitialWindow + creditOn 1
            (earlier.foldl (watch (step blankDecoder) (credits blankDecoder)) (start, [])).2) := by
  intro es start
  have hmeet : StepsMeet (step blankDecoder) SendsSafely start es := by
    decide
  have hread : readClientSettings [] = .ok {} := rfl
  have hown : ({} : ServerSettings).initialWindowSize ≤ 65535 := by
    decide
  obtain ⟨hspends, -⟩ := server_spends_within_credit blankDecoder () {} hown hread es hmeet
  refine ⟨hmeet, hspends 1 ?_⟩
  decide

/-- The peer closes its window while a call holds what it reserved, and the call writes it. -/
theorem reserved_data_after_lowering :
    let es : List Event := [.frame (.headers 1 [] true true none), .flush, .data 1 100 true,
      .reserveStream 0, .reserveConn 0,
      .frame (.settings false [⟨.initialWindowSize, 0⟩]), .chunk 0]
    let start := newServerConn () {} {}
    1 ∈ (run blankDecoder start es).streams ∧
      ¬ ∃ earlier later, es = earlier ++ later ∧
        dataBytesOn 1 (run blankDecoder start es).wire =
          dataBytesOn 1 (run blankDecoder start earlier).wire ∧
        dataBytesOn 1 (run blankDecoder start earlier).wire ≤
          (run blankDecoder start earlier).clientS.effectiveInitialWindow + creditOn 1
            (earlier.foldl (watch (step blankDecoder) (credits blankDecoder)) (start, [])).2 := by
  intro es start
  refine ⟨by decide, ?_⟩
  rintro ⟨earlier, later, heq, hbytes, hle⟩
  have hprefix : earlier ∈ es.inits := List.mem_inits _ _ |>.mpr ⟨later, heq.symm⟩
  have hall : ∀ earlier ∈ es.inits,
      dataBytesOn 1 (run blankDecoder start es).wire =
          dataBytesOn 1 (run blankDecoder start earlier).wire →
      ¬ dataBytesOn 1 (run blankDecoder start earlier).wire ≤
          (run blankDecoder start earlier).clientS.effectiveInitialWindow + creditOn 1
            (earlier.foldl (watch (step blankDecoder) (credits blankDecoder)) (start, [])).2 := by
    decide
  exact hall earlier hprefix hbytes hle

end ServerConn

end EnvoyGo.H2
