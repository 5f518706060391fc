import Madoka.MatchServer.Field

namespace MatchServer

def CsPhase.calm : CsPhase → Bool
  | .fight | .matchEndPause | .postBanner | .matchEnd => false
  | _ => true

inductive Label where
  | hit (victim attacker dmg : Nat)
  | startRescue (reviver target : Nat)
  | stopRescue (reviver target : Nat)
  | leave (s : SessionId)
  | join (s : SessionId) (team : Nat)
  | setup
  | begin_
  | bleed
  | rescue
  | heal
  | revive
  | bot
  | fight
  | score
  | turn
  deriving DecidableEq, Repr

namespace Field

-- The parts of a match where a player may be seated first.
structure Untouched (f : Field) : Prop where
  crew : f.crew = []
  slot : f.slot = 0
  bot : f.bot = 0
  life : f.life = fun _ => none
  hp : f.hp = fun _ => none
  knock : f.knock = fun _ => none
  rescues : f.rescues = fun _ => none
  kills : f.kills = fun _ => none
  deaths : f.deaths = fun _ => none
  damage : f.damage = fun _ => none
  roundOver : f.roundOver = false
  firstBlood : f.firstBlood = 0
  phase : f.phase = .setupBind
  started : f.started = false
  zoneOn : f.zoneOn = false
  begun : f.begun = false
  deeds : f.deeds = []

-- What a turn of the phase machine may do where nobody fights.
structure Turns (f : Field) (ph : CsPhase) (st : Bool) (ds : List Deed) : Prop where
  phase : (f.phase.calm ∧ ph.calm) ∨ ph = f.phase ∨ (f.phase = .matchEndPause ∧ ph = .matchEnd)
  started : f.started → st
  deeds : ds = [] ∨ ds = [.closed] ∨ ∃ r, ds = [.opened r]

-- One operation on the field of a match at a time `now`.
inductive Move (now : Int) : Label → Field → Field → Prop where
  | hit {f victim attacker dmg ks order} : f.Falls victim attacker ks order →
    Move now (.hit victim attacker dmg) f (f.applyDamage victim attacker dmg ks order)
  | startRescue {f reviver target startMs} :
    Move now (.startRescue reviver target) f (f.startRescue now reviver target startMs)
  | stopRescue {f reviver target} :
    Move now (.stopRescue reviver target) f (f.stopRescue reviver target)
  | leave {f x} : x ∈ f.crew → Move now (.leave x.s) f (f.leave x.s x.entity)
  | join {f s team} : (∀ x ∈ f.crew, x.s ≠ s) → team = 1 ∨ team = 2 → 2 ≤ f.slot →
    f.slot + 1 < 256 → f.begun → Move now (.join s team) f (f.join s team)
  | setup {f s team hp} : f.Untouched → team = 1 ∨ team = 2 →
    Move now .setup f (f.setup s team hp)
  | begin_ {f} : f.begun = false → Move now .begin_ f f.begin_
  | bleed {f e} : Move now .bleed f (f.bleed now e)
  | rescue {f e} : Move now .rescue f (f.rescueTick now e)
  | heal {f x gain h} : x ∈ f.crew → f.lifeOf x.entity = .alive → gain ≤ maxEP →
    (((f.hp x.entity).getD 0) + gain < 65536 → h = min (((f.hp x.entity).getD 0) + gain) f.maxHP) →
    Move now .heal f (f.heal x.entity h)
  | revive {f ph} : f.phase = .postBanner → ph.calm →
    Move now .revive f { f.reviveAll with phase := ph }
  | bot {f} : f.started = false → f.phase.calm →
    Move now .bot f { f.spawnBot with phase := .prepare, started := true }
  | fight {f zone} : f.phase = .prepare → f.started → Move now .fight f (f.startFight zone)
  | score {f r winner ph} : f.phase = .fight →
    f.standing localTeamID = 0 ∨ f.standing enemyTeamID = 0 →
    winner = (if 0 < f.standing localTeamID then localTeamID else enemyTeamID) →
    ph = .matchEndPause ∨ ph = .postBanner → Move now .score f (f.score r winner ph)
  | turn {f ph st ds} : f.Turns ph st ds →
    Move now .turn f { f with phase := ph, started := st, deeds := f.deeds ++ ds }

inductive Path (now : Int) (ok : Field → Label → Prop) (f : Field) : Field → Prop where
  | refl : Path now ok f f
  | next {g h l} : Path now ok f g → ok g l → Move now l g h → Path now ok f h

variable {now : Int} {ok ok' : Field → Label → Prop} {f g h : Field}

theorem Path.trans (hp : Path now ok f g) (hq : Path now ok g h) : Path now ok f h := by
  induction hq with
  | refl => exact hp
  | next _ hl hm ih => exact ih.next hl hm

theorem Path.mono (hp : Path now ok f g) (h : ∀ f l, ok f l → ok' f l) : Path now ok' f g := by
  induction hp with
  | refl => exact .refl
  | next _ hl hm ih => exact ih.next (h _ _ hl) hm

theorem Path.eq_of_none (hp : Path now ok f g) (h : ∀ f l, ¬ ok f l) : g = f := by
  cases hp with
  | refl => rfl
  | next _ hl _ => exact absurd hl (h _ _)

theorem Path.invariant {I : Field → Prop} (hp : Path now ok f g) (hf : I f)
    (hstep : ∀ {f l g}, I f → ok f l → Move now l f g → I g) : I g := by
  induction hp with
  | refl => exact hf
  | next _ hl hm ih => exact hstep ih hl hm

theorem slot_of_move {l : Label} (h : Move now l f g) : g.slot = f.slot ∨
    ((∃ s team, l = .join s team) ∧ 2 ≤ f.slot ∧ g.slot = f.slot + 1) ∨ (l = .setup ∧ f.Untouched ∧ g.slot = 2) := by
  cases h with
  | hit _ => exact Or.inl (congrArg Stage.slot stage_applyDamage)
  | startRescue => exact Or.inl (congrArg Stage.slot stage_startRescue)
  | stopRescue => exact Or.inl (congrArg Stage.slot stage_stopRescue)
  | leave _ => exact Or.inl rfl
  | join _ _ htwo hlt _ =>
    refine Or.inr (Or.inl ⟨⟨_, _, rfl⟩, htwo, ?_⟩)
    exact (congrArg Stage.slot stage_join).trans (Nat.mod_eq_of_lt hlt)
  | setup hf _ => exact Or.inr (Or.inr ⟨rfl, hf, by simp [setup, nextSlot, hf.slot]⟩)
  | begin_ _ => exact Or.inl (congrArg Stage.slot stage_initHP)
  | bleed => exact Or.inl (congrArg Stage.slot stage_bleed)
  | rescue => exact Or.inl (congrArg Stage.slot stage_rescueTick)
  | heal _ _ _ _ => exact Or.inl rfl
  | revive _ _ => exact Or.inl (congrArg Stage.slot stage_reviveAll)
  | bot _ _ => exact Or.inl rfl
  | fight _ _ => exact Or.inl rfl
  | score _ _ _ _ => exact Or.inl rfl
  | turn _ => exact Or.inl rfl

theorem begun_of_move {l : Label} (h : Move now l f g) (hb : f.begun = true) : g.begun = true := by
  have hs : ∀ {g : Field}, g.stage = f.stage → g.begun = true := fun hs =>
    (congrArg Stage.begun hs).trans hb
  cases h with
  | hit _ => exact hs stage_applyDamage
  | startRescue => exact hs stage_startRescue
  | stopRescue => exact hs stage_stopRescue
  | leave _ => exact hb
  | join _ _ _ _ _ => exact (congrArg Stage.begun stage_join).trans hb
  | setup hf _ => exact absurd (hf.begun.symm.trans hb) Bool.false_ne_true
  | begin_ _ => exact congrArg Stage.begun (stage_initHP (f := { f with begun := true }))
  | bleed => exact hs stage_bleed
  | rescue => exact hs stage_rescueTick
  | heal _ _ _ _ => exact hb
  | revive _ _ => exact (congrArg Stage.begun (stage_reviveAll (f := f))).trans hb
  | bot _ _ => exact hb
  | fight _ _ => exact hb
  | score _ _ _ _ => exact hb
  | turn _ => exact hb

end Field

end MatchServer
