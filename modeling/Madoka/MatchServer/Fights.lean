import Madoka.Lib.History
import Madoka.MatchServer.Lives

namespace MatchServer

open Lib MatchServer.Core

-- A round that was scored had a Fight before it, which began with somebody alive on both sides.
def Fair (ds : List Deed) : Prop :=
  (∀ one two, Deed.fight one two ∈ ds → 0 < one ∧ 0 < two) ∧
    ∀ pre post r winner, ds = pre ++ .scored r winner :: post →
      ∃ a b one two, pre = a ++ .fight one two :: b ∧ ∀ r' winner', Deed.scored r' winner' ∉ b

def Fought (ds : List Deed) : Prop :=
  ∃ a b one two, ds = a ++ .fight one two :: b ∧ ∀ r winner, Deed.scored r winner ∉ b

def Deed.isRound : Deed → Bool
  | .fight _ _ | .scored _ _ => true
  | _ => false

theorem isRound_of_makes {l : Label} {d : Deed} (h : l.makes d) (hf : l ≠ .fight) (hs : l ≠ .score) :
    d.isRound = false := by
  cases d with
  | fight _ _ => cases l <;> simp_all [Label.makes]
  | scored _ _ => cases l <;> simp_all [Label.makes]
  | _ => rfl

theorem fair_append {ds es : List Deed} (h : Fair ds) (hes : ∀ d ∈ es, d.isRound = false) :
    Fair (ds ++ es) := by
  refine ⟨fun one two hm => ?_, fun pre post r winner heq => ?_⟩
  · rcases List.mem_append.mp hm with hm | hm
    · exact h.1 one two hm
    · exact Bool.noConfusion (hes _ hm)
  · rcases List.append_eq_append_iff.mp heq with ⟨a, rfl, ha⟩ | ⟨c, hds, hc⟩
    · have hm : Deed.scored r winner ∈ es := by
        rw [ha]
        simp
      exact Bool.noConfusion (hes _ hm)
    · cases c with
      | nil =>
        have hm : Deed.scored r winner ∈ es := by
          rw [show es = .scored r winner :: post from hc.symm]
          exact List.mem_cons_self
        exact Bool.noConfusion (hes _ hm)
      | cons d c =>
        obtain ⟨rfl, -⟩ := List.cons.inj hc
        exact h.2 pre c r winner hds

theorem fought_append {ds es : List Deed} (h : Fought ds) (hes : ∀ d ∈ es, d.isRound = false) :
    Fought (ds ++ es) := by
  obtain ⟨a, b, one, two, rfl, hb⟩ := h
  refine ⟨a, b ++ es, one, two, by simp, fun r winner hm => ?_⟩
  rcases List.mem_append.mp hm with hm | hm
  · exact hb r winner hm
  · exact Bool.noConfusion (hes _ hm)

theorem fought_fight (ds : List Deed) (one two : Nat) : Fought (ds ++ [.fight one two]) :=
  ⟨ds, [], one, two, rfl, fun _ _ => List.not_mem_nil⟩

theorem fair_fight {ds : List Deed} {one two : Nat} (h : Fair ds) (h1 : 0 < one) (h2 : 0 < two) :
    Fair (ds ++ [.fight one two]) := by
  refine ⟨fun a b hm => ?_, fun pre post r winner heq => ?_⟩
  · rcases List.mem_append.mp hm with hm | hm
    · exact h.1 a b hm
    · obtain ⟨rfl, rfl⟩ : a = one ∧ b = two := by simpa using hm
      exact ⟨h1, h2⟩
  · rcases split_snoc heq with ⟨-, -, hlast⟩ | ⟨post', -, hds⟩
    · cases hlast
    · exact h.2 pre post' r winner hds

theorem fair_scored {ds : List Deed} {r winner : Nat} (h : Fair ds) (hf : Fought ds) :
    Fair (ds ++ [.scored r winner]) := by
  refine ⟨fun a b hm => ?_, fun pre post r' winner' heq => ?_⟩
  · rcases List.mem_append.mp hm with hm | hm
    · exact h.1 a b hm
    · exact absurd hm (by simp)
  · rcases split_snoc heq with ⟨-, rfl, -⟩ | ⟨post', -, hds⟩
    · exact hf
    · exact h.2 pre post' r' winner' hds

namespace Field

variable {f g : Field} {victim attacker dmg e : Nat} {ks : KnockState} {order : List Nat}
  {now : Int} {l : Label}

def Lethal (f : Field) (victim dmg : Nat) : Prop :=
  f.lifeOf victim = .alive ∧ ∃ cur ∈ f.hp victim, 0 < cur ∧ cur ≤ dmg

instance (f : Field) (victim dmg : Nat) : Decidable (f.Lethal victim dmg) :=
  inferInstanceAs (Decidable (_ ∧ ∃ cur ∈ f.hp victim, _))

def Unhurt (f : Field) : Prop :=
  (∀ e, f.knock e = none) ∧ ∀ e, f.Takes e → f.lifeOf e = .alive

theorem Unhurt.of_eq (h : f.Unhurt) (hk : g.knock = f.knock) (hl : g.life = f.life)
    (ht : ∀ e, g.Takes e → f.Takes e) : g.Unhurt := by
  refine ⟨fun e => by rw [hk, h.1], fun e he => ?_⟩
  unfold lifeOf
  rw [hl]
  exact h.2 e (ht e he)

theorem unhurt_hit (h : f.Unhurt) (hl : f.roundOver = false → ¬ f.Lethal victim dmg) :
    (f.applyDamage victim attacker dmg ks order).Unhurt := by
  have ht : ∀ e, (f.applyDamage victim attacker dmg ks order).Takes e → f.Takes e :=
    fun e => (takes_of_stage stage_applyDamage).mp
  suffices hs : (f.applyDamage victim attacker dmg ks order).knock = f.knock ∧
      (f.applyDamage victim attacker dmg ks order).life = f.life from h.of_eq hs.1 hs.2 ht
  unfold applyDamage
  split
  · exact ⟨rfl, rfl⟩
  rename_i hover
  split
  · simp [damageKnocked, h.1]
  · exact ⟨rfl, rfl⟩
  rename_i halive
  split
  · exact ⟨rfl, rfl⟩
  rename_i cur hcur
  split
  · exact ⟨rfl, rfl⟩
  rename_i hpos
  have hlt : ¬ cur ≤ dmg := fun hle =>
    hl (Bool.eq_false_iff.mpr hover) ⟨halive, cur, hcur, Nat.pos_of_ne_zero hpos, hle⟩
  have hleft : cur - dmg ≠ 0 := by omega
  dsimp only
  rw [if_neg hlt, if_neg hleft]
  unfold creditDamage
  split <;> exact ⟨rfl, rfl⟩

theorem unhurt_rescueTick {target : Nat} (h : f.Unhurt) : (f.rescueTick now target).Unhurt := by
  unfold rescueTick
  split
  · exact h
  rename_i r hr
  split
  · exact h.of_eq rfl rfl fun _ => id
  split
  · exact h
  refine ⟨fun e => ?_, fun e he => ?_⟩
  · change Function.update f.knock r.target none e = none
    by_cases heq : e = r.target
    · rw [heq, Function.update_self]
    · rw [Function.update_of_ne heq, h.1]
  · change (Function.update f.life r.target (some .alive) e).getD .alive = .alive
    by_cases heq : e = r.target
    · rw [heq, Function.update_self]
      rfl
    · rw [Function.update_of_ne heq]
      exact h.2 e he

theorem unhurt_reviveAll : f.reviveAll.Unhurt := by
  refine ⟨fun _ => rfl, fun e he => ?_⟩
  have hs := stage_reviveAll (f := f)
  exact lifeOf_raised rfl rfl ((takes_of_eq (congrArg Stage.crew hs) (congrArg Stage.bot hs)).mp he)

theorem unhurt_initHP : f.initHP.Unhurt := by
  refine ⟨fun e => ?_, fun e he => ?_⟩
  · exact congrFun initHP_cleared.1 e
  · exact @lifeOf_raised _ _ f.clear rfl rfl ((takes_of_stage stage_initHP).mp he)

theorem unhurt_update (h : f.Unhurt) {e' : Nat} {life : Option LifeState}
    (hlife : life.getD .alive = .alive) (hk : g.knock = f.knock)
    (hl : g.life = Function.update f.life e' life)
    (ht : ∀ e, g.Takes e → e ≠ e' → f.Takes e) : g.Unhurt := by
  refine ⟨fun e => by rw [hk, h.1], fun e he => ?_⟩
  unfold lifeOf
  rw [hl]
  by_cases heq : e = e'
  · rw [heq, Function.update_self]
    exact hlife
  · rw [Function.update_of_ne heq]
    exact h.2 e (ht e he heq)

theorem unhurt_retireBot (h : f.Unhurt) : f.retireBot.Unhurt := by
  unfold retireBot
  split
  · exact h
  · refine @unhurt_update _ (tally _) h f.bot none rfl rfl rfl fun e he _ => ?_
    rcases he with hx | hb
    · exact Or.inl hx
    · exact absurd rfl hb.1

theorem unhurt_join {s : SessionId} {team : Nat} (h : f.Unhurt) : (f.join s team).Unhurt := by
  refine unhurt_retireBot (@unhurt_update _ (note _ _) h
    (team * 2 ^ 24 + f.nextSlot) (some .alive) rfl rfl rfl fun e he hne => ?_)
  rcases he with ⟨x, hx, rfl⟩ | hb
  · rcases List.mem_append.mp hx with hx | hx
    · exact takes_crew hx
    · rw [List.mem_singleton.mp hx] at hne
      exact absurd rfl hne
  · exact Or.inr hb

theorem unhurt_leave {s : SessionId} {entity : Nat} (h : f.Unhurt) : (f.leave s entity).Unhurt := by
  refine ⟨fun e => ?_, fun e he => ?_⟩
  · change Function.update f.knock entity none e = none
    by_cases heq : e = entity
    · rw [heq, Function.update_self]
    · rw [Function.update_of_ne heq, h.1]
  · change (Function.update f.life entity none e).getD .alive = .alive
    by_cases heq : e = entity
    · rw [heq, Function.update_self]
      rfl
    · rw [Function.update_of_ne heq]
      refine h.2 e ?_
      rcases he with ⟨x, hx, rfl⟩ | hb
      · exact takes_crew (List.mem_of_mem_filter hx)
      · exact Or.inr hb

structure Quiet (f : Field) : Prop where
  crewed : f.Crewed
  early : f.begun = false → f.phase = .setupBind ∧ f.zoneOn = false
  zone : f.zoneOn = true → f.phase = .fight
  calm : f.phase.calm → f.Unhurt
  fair : Fair f.deeds
  fought : f.phase = .fight → Fought f.deeds
  ended : f.phase = .matchEndPause ∨ f.phase = .matchEnd → ∃ r winner, .scored r winner ∈ f.deeds

theorem quiet_untouched (h : f.Untouched) : f.Quiet where
  crewed := crewed_untouched h
  early := fun _ => ⟨h.phase, h.zoneOn⟩
  zone := fun hz => absurd (h.zoneOn.symm.trans hz) (by decide)
  calm := fun _ => ⟨fun e => by rw [h.knock], fun e _ => by simp [lifeOf, h.life]⟩
  fair := by
    rw [h.deeds]
    exact ⟨fun one two hx => absurd hx List.not_mem_nil, fun pre post r winner heq => absurd heq (by simp)⟩
  fought := fun hp => absurd (h.phase.symm.trans hp) (by decide)
  ended := fun hp => by
    rw [h.phase] at hp
    exact absurd hp (by decide)

theorem Quiet.step (h : f.Quiet) (hm : Move now l f g)
    (hs : (g.begun, g.phase, g.zoneOn) = (f.begun, f.phase, f.zoneOn))
    (hround : ∀ d, l.makes d → d.isRound = false)
    (hu : f.phase.calm → f.Unhurt → g.Unhurt) : g.Quiet := by
  obtain ⟨ds, hd, hmade⟩ := adds_move hm
  have hds : ∀ d ∈ ds, d.isRound = false := fun d hx => hround d (hmade d hx)
  simp only [Prod.mk.injEq] at hs
  obtain ⟨hb, hp, hz⟩ := hs
  refine ⟨crewed_move h.crewed hm, ?_, ?_, ?_, ?_, ?_, ?_⟩
  · rw [hb, hp, hz]
    exact h.early
  · rw [hp, hz]
    exact h.zone
  · rw [hp]
    exact fun hc => hu hc (h.calm hc)
  · rw [hd]
    exact fair_append h.fair hds
  · rw [hp, hd]
    exact fun hf => fought_append (h.fought hf) hds
  · rw [hp, hd]
    intro he
    obtain ⟨r, winner, hx⟩ := h.ended he
    exact ⟨r, winner, List.mem_append_left _ hx⟩

theorem Quiet.ready (h : f.Quiet) (hp : f.phase.calm) {t : Nat} (hs : 0 < f.size t) :
    0 < f.standing t := by
  obtain ⟨e, he, ht⟩ := h.crewed.size_pos.mp hs
  exact h.crewed.standing_pos.mpr ⟨e, he, ht, (h.calm hp).2 e he⟩

end Field

namespace Server

variable {w : World} {v : Server} {e : Event} {m : MatchRef} {f g : Field} {l : Label}
  {es : List Event}

-- A Fight is entered with both teams on the roster, and no report takes anybody down outside of one.
def Matched (v : Server) (e : Event) : Prop :=
  v.JoinsOnce e ∧
    (∀ m ∈ e.act.ticked, (v.core.ms m).phase = .prepare → (v.core.ms m).started = true →
      (v.core.atMoment e.moment (some m)).due m = true →
      0 < v.core.teamSize m localTeamID ∧ 0 < v.core.teamSize m enemyTeamID) ∧
    ∀ x ∈ v.handles e.act .takeDamage, ∀ req ∈ parseTakeDamage x.2.1.payload,
      (v.core.ms x.2.2).roundOver = false → (v.core.ms x.2.2).phase ≠ .fight →
      ¬ (v.core.field x.2.2).Lethal req.victim req.dmg

instance (v : Server) (e : Event) : Decidable (v.Matched e) :=
  inferInstanceAs (Decidable (_ ∧ (∀ m ∈ e.act.ticked, _) ∧
    ∀ x ∈ v.handles e.act .takeDamage, ∀ req ∈ parseTakeDamage x.2.1.payload, _))

theorem quiet_step (hc : v.Matched e) (hwhy : Why w v e m f l)
    (hup : l ≠ .setup → l ≠ .begin_ → f.begun = true) (h : f.Quiet)
    (hm : Field.Move e.moment.now l f g) : g.Quiet := by
  have hmove := hm
  have hcrew := Field.crewed_move h.crewed hm
  have hlate : l ≠ .setup → l ≠ .begin_ → g.begun = false →
      g.phase = .setupBind ∧ g.zoneOn = false := fun h1 h2 hg =>
    Bool.noConfusion (hg.symm.trans (Field.begun_of_move hm (hup h1 h2)))
  have hsame : g.stage = f.stage → l ≠ .fight → l ≠ .score →
      (f.phase.calm → f.Unhurt → g.Unhurt) → g.Quiet := fun hs h1 h2 =>
    h.step hmove (congrArg (fun x : Field.Stage => (x.begun, x.phase, x.zoneOn)) hs) fun _ hd =>
      isRound_of_makes hd h1 h2
  cases hm with
  | @hit _ victim attacker dmg ks order hf =>
    refine hsame Field.stage_applyDamage (by rintro ⟨⟩) (by rintro ⟨⟩) fun hcalm hu =>
      Field.unhurt_hit hu fun hover => ?_
    have hne : f.phase ≠ .fight := fun hp => by
      rw [hp] at hcalm
      exact absurd hcalm (by decide)
    rcases hwhy.hit_cases with ⟨rfl, -, s, p, req, hh, hreq, rfl, rfl, rfl⟩ | ⟨-, hon, -⟩
    · exact hc.2.2 (s, p, m) hh req hreq hover hne
    · exact absurd (h.zone hon) hne
  | startRescue =>
    refine hsame Field.stage_startRescue (by rintro ⟨⟩) (by rintro ⟨⟩) fun _ hu => ?_
    refine hu.of_eq ?_ ?_ fun e => (Field.takes_of_stage Field.stage_startRescue).mp
    all_goals
      unfold Field.startRescue
      split
      · rfl
      · split <;> rfl
  | stopRescue =>
    refine hsame Field.stage_stopRescue (by rintro ⟨⟩) (by rintro ⟨⟩) fun _ hu => ?_
    refine hu.of_eq ?_ ?_ fun e => (Field.takes_of_stage Field.stage_stopRescue).mp
    all_goals
      unfold Field.stopRescue
      split
      · split <;> rfl
      · rfl
  | leave _ =>
    exact h.step hmove rfl (fun _ hd => isRound_of_makes hd (by rintro ⟨⟩) (by rintro ⟨⟩)) fun _ hu =>
      Field.unhurt_leave hu
  | join _ _ _ _ _ =>
    exact h.step hmove
      (congrArg (fun x : Field.Stage => (x.begun, x.phase, x.zoneOn)) Field.stage_join)
      (fun _ hd => isRound_of_makes hd (by rintro ⟨⟩) (by rintro ⟨⟩)) fun _ hu => Field.unhurt_join hu
  | setup hf _ =>
    have hu : ∀ e, f.lifeOf e = .alive := fun e => by simp [Field.lifeOf, hf.life]
    exact ⟨hcrew, fun _ => ⟨hf.phase, hf.zoneOn⟩, h.zone,
      fun _ => ⟨fun e => by simp [Field.setup, Field.enlist, hf.knock], fun e _ => hu e⟩, h.fair,
      h.fought, h.ended⟩
  | begin_ hb =>
    have hd : f.begin_.deeds = f.deeds ++ [.reset] := Field.deeds_initHP
    have hz : f.begin_.zoneOn = false :=
      (congrArg Field.Stage.zoneOn Field.stage_initHP).trans (h.early hb).2
    refine ⟨hcrew, fun _ => ⟨rfl, hz⟩, fun hon => absurd (hz.symm.trans hon) (by decide),
      fun _ => Field.unhurt_initHP.of_eq rfl rfl fun _ => id, ?_, (by rintro ⟨⟩),
      fun hend => hend.elim (by rintro ⟨⟩) (by rintro ⟨⟩)⟩
    rw [hd]
    exact fair_append h.fair fun d hx => by
      rw [List.mem_singleton.mp hx]
      rfl
  | bleed =>
    refine hsame Field.stage_bleed (by rintro ⟨⟩) (by rintro ⟨⟩) fun _ hu => ?_
    simp only [Field.bleed, hu.1]
    exact hu
  | rescue =>
    exact hsame Field.stage_rescueTick (by rintro ⟨⟩) (by rintro ⟨⟩) fun _ hu => Field.unhurt_rescueTick hu
  | heal _ _ _ _ =>
    exact h.step hmove rfl (fun _ hd => isRound_of_makes hd (by rintro ⟨⟩) (by rintro ⟨⟩)) fun _ hu =>
      hu.of_eq rfl rfl fun _ => id
  | @revive _ ph hp hcalm =>
    have hz : f.reviveAll.zoneOn = f.zoneOn := congrArg Field.Stage.zoneOn Field.stage_reviveAll
    have hoff : f.zoneOn = false := Bool.eq_false_iff.mpr fun hon =>
      absurd (hp.symm.trans (h.zone hon)) (by decide)
    refine ⟨hcrew, hlate (by rintro ⟨⟩) (by rintro ⟨⟩),
      fun hon => absurd ((hoff.symm.trans hz.symm).trans hon) (by decide),
      fun _ => Field.unhurt_reviveAll.of_eq rfl rfl fun _ => id, ?_, fun hf => ?_, fun he => ?_⟩
    · change Fair f.reviveAll.deeds
      rw [Field.deeds_reviveAll]
      exact fair_append h.fair fun d hx => by
        rw [List.mem_singleton.mp hx]
        rfl
    · have hf' : ph = .fight := hf
      rw [hf'] at hcalm
      exact absurd hcalm (by decide)
    · rcases he with he | he
      all_goals
        have he' : ph = _ := he
        rw [he'] at hcalm
        exact absurd hcalm (by decide)
  | bot hst hcalm =>
    have hoff : f.zoneOn = false := Bool.eq_false_iff.mpr fun hon => by
      rw [h.zone hon] at hcalm
      exact absurd hcalm (by decide)
    refine ⟨hcrew, hlate (by rintro ⟨⟩) (by rintro ⟨⟩),
      fun hon => absurd (hoff.symm.trans hon) (by decide), fun _ => ?_, ?_, (by rintro ⟨⟩),
      fun hend => hend.elim (by rintro ⟨⟩) (by rintro ⟨⟩)⟩
    · refine @Field.unhurt_update _ _ (h.calm hcalm) botEntityID (some .alive) rfl rfl rfl
        fun e he hne => ?_
      rcases he with hx | hb
      · exact Or.inl hx
      · exact absurd hb.2 hne
    · exact fair_append h.fair fun d hx => by
        rw [List.mem_singleton.mp hx]
        rfl
  | @fight _ zone hp hst =>
    have hready : ∀ t, 0 < f.size t → 0 < f.standing t := fun t =>
      h.ready (by rw [hp]; rfl)
    have hboth : 0 < f.standing localTeamID ∧ 0 < f.standing enemyTeamID := by
      cases hwhy with
      | handler _ _ hl => cases hl
      | tick hact _ hl =>
        cases hl with
        | clock _ hl => exact absurd rfl hl
        | fight hdue =>
          have hs := hc.2.1 m (by rw [hact]; rfl) hp hst hdue
          rw [teamSize_eq, teamSize_eq] at hs
          exact ⟨hready _ hs.1, hready _ hs.2⟩
    exact ⟨hcrew, hlate (by rintro ⟨⟩) (by rintro ⟨⟩), fun _ => rfl, (by rintro ⟨⟩),
      fair_fight h.fair hboth.1 hboth.2, fun _ => fought_fight _ _ _, fun hend => hend.elim (by rintro ⟨⟩) (by rintro ⟨⟩)⟩
  | @score _ r winner ph hp _ _ hph =>
    have hdeeds : (f.score r winner ph).deeds = f.deeds ++ [.scored r winner] := rfl
    have hphase : (f.score r winner ph).phase = ph := rfl
    refine ⟨hcrew, hlate (by rintro ⟨⟩) (by rintro ⟨⟩), (by rintro ⟨⟩), fun hcalm => ?_,
      fair_scored h.fair (h.fought hp), fun hf => ?_, fun _ => ⟨r, winner, by rw [hdeeds]; simp⟩⟩
    · rw [hphase] at hcalm
      rcases hph with rfl | rfl <;> exact absurd hcalm (by decide)
    · rw [hphase] at hf
      rcases hph with rfl | rfl <;> exact absurd hf (by decide)
  | @turn _ ph st ds hf =>
    have hds : ∀ d ∈ ds, d.isRound = false := fun d hx => by
      rcases hf.deeds with rfl | rfl | ⟨r, rfl⟩
      · exact absurd hx List.not_mem_nil
      all_goals
        rw [List.mem_singleton.mp hx]
        rfl
    have hkept : ∀ r winner, Deed.scored r winner ∈ f.deeds →
        ∃ r winner, .scored r winner ∈ f.deeds ++ ds :=
      fun r winner hx => ⟨r, winner, List.mem_append_left _ hx⟩
    refine ⟨hcrew, hlate (by rintro ⟨⟩) (by rintro ⟨⟩), fun hon => ?_, fun hcalm => ?_, fair_append h.fair hds,
      fun hfight => ?_, fun he => ?_⟩
    · have hp : f.phase = .fight := h.zone hon
      rcases hf.phase with ⟨hc, -⟩ | hph | ⟨hc, -⟩
      · rw [hp] at hc
        exact absurd hc (by decide)
      · exact hph.trans hp
      · exact absurd (hp.symm.trans hc) (by decide)
    · have hc : f.phase.calm := by
        rcases hf.phase with ⟨hc, -⟩ | hph | ⟨-, hph⟩
        · exact hc
        · exact hph ▸ hcalm
        · have hcalm' : ph.calm = true := hcalm
          rw [hph] at hcalm'
          exact absurd hcalm' (by decide)
      exact (h.calm hc).of_eq rfl rfl fun _ => id
    · refine fought_append (h.fought ?_) hds
      have hph : ph = .fight := hfight
      rcases hf.phase with ⟨-, hc⟩ | hsame | ⟨-, hend⟩
      · rw [hph] at hc
        exact absurd hc (by decide)
      · exact hsame ▸ hph
      · exact absurd (hph.symm.trans hend) (by decide)
    · have hended : f.phase = .matchEndPause ∨ f.phase = .matchEnd := by
        rcases hf.phase with ⟨-, hc⟩ | hsame | ⟨hpause, -⟩
        · rcases he with he | he
          all_goals
            rw [show ph = _ from he] at hc
            exact absurd hc (by decide)
        · exact hsame ▸ he
        · exact Or.inl hpause
      obtain ⟨r, winner, hx⟩ := h.ended hended
      exact hkept r winner hx

-- Every Fight begins with both teams alive, and every scored round had such a Fight.
theorem fair_fights (h : Run (Guarded (Step w) Matched) start es v) (m : MatchRef) :
    Fair (v.core.ms m).deeds ∧ ((v.core.ms m).phase = .fight → Fought (v.core.ms m).deeds) ∧
      ((v.core.ms m).phase = .matchEndPause ∨ (v.core.ms m).phase = .matchEnd →
        ∃ r winner, .scored r winner ∈ (v.core.ms m).deeds) := by
  have hq : (v.core.field m).Quiet :=
    field_invariant h (fun _ _ hc => hc.1) (fun _ => Field.quiet_untouched)
      (fun _ hc _ hwhy _ hup hf hm => quiet_step hc hwhy hup hf hm) m
  exact ⟨hq.fair, hq.fought, hq.ended⟩

-- Two players without tokens, up to the first Fight.
def duel : List Event :=
  [event 1 (.dispatch 0 join), event 2 (.letIn ⟨0, 0, true, none⟩), event 3 (.start 0),
    event 4 (.dispatch 1 join), event 5 (.letIn ⟨1, 0, false, none⟩), event 6 (.exec 0),
    event 1000000000 (.tick 0), event 3000000000 (.tick 0), event 7000000000 (.tick 0),
    event 18000000000 (.tick 0)]

theorem duel_is_fair : ∃ v, Run (Guarded (Step bareWorld) Matched) start duel v ∧
    (v.core.ms 0).deeds = [.reset, .seated 0x02000003, .fight 1 1] ∧ Fair (v.core.ms 0).deeds := by
  have hrun : ((duel.foldlM (fun v e => if Matched v e then step bareWorld v e else none)
      start).map fun v => (v.core.ms 0).deeds) = some [.reset, .seated 0x02000003, .fight 1 1] := by
    decide +kernel
  obtain ⟨v, hv, hd⟩ := Option.map_eq_some_iff.mp hrun
  exact ⟨v, run_of_checked hv, hd, (fair_fights (run_of_checked hv) 0).1⟩

-- The host of a custom room, on team 2, starts it alone with MATCH_BOT: the bot joins team 2.
def loneHost : List Event :=
  [event 1 (.dispatch 0 (joinWith hostToken)), event 2 (.letIn ⟨0, 0, true, none⟩),
    event 3 (.start 0), event 1000000000 (.tick 0), event 3000000000 (.tick 0),
    event 7000000000 (.tick 0), event 18000000000 (.tick 0)]

theorem loneHost_sides_with_bot :
    ¬ ∀ w es v m, Run (Step w) start es v → Fair (v.core.ms m).deeds := by
  intro hall
  have hrun : ((loneHost.foldlM (step signedWorld) start).map fun v => (v.core.ms 0).deeds) =
      some [.reset, .seated botEntityID, .fight 0 2] := by
    decide +kernel
  obtain ⟨v, hv, hd⟩ := Option.map_eq_some_iff.mp hrun
  have hfair := hall signedWorld loneHost v 0 (run_of_foldlM hv)
  rw [hd] at hfair
  exact absurd (hfair.1 0 2 (by simp)).1 (by decide)

end Server

end MatchServer
