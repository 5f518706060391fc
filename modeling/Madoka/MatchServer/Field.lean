import Madoka.MatchServer.Combat

namespace MatchServer

open Lib

structure Member where
  s : SessionId
  entity : Nat
  team : Nat
  deriving DecidableEq, Repr

-- What a match is to its fight: who takes part, who lives and bleeds, and what happened. The maps
-- are functions, so that two maps with the same entries are one.
structure Field where
  crew : List Member
  slot : Nat
  bot : Nat
  life : Nat → Option LifeState
  hp : Nat → Option Nat
  knock : Nat → Option KnockState
  rescues : Nat → Option RescueState
  kills : Nat → Option Nat
  deaths : Nat → Option Nat
  damage : Nat → Option Nat
  roundOver : Bool
  firstBlood : Nat
  phase : CsPhase
  started : Bool
  zoneOn : Bool
  begun : Bool
  maxHP : Nat
  deeds : List Deed

-- The counter of an entity goes up.
def bump (counts : Nat → Option Nat) (entity by_ modulus : Nat) : Nat → Option Nat :=
  Function.update counts entity (some (((counts entity).getD 0 + by_) % modulus))

namespace Field

variable (f : Field)

def note (d : Deed) : Field := { f with deeds := f.deeds ++ [d] }

def lifeOf (entity : Nat) : LifeState := (f.life entity).getD .alive

def size (team : Nat) : Nat :=
  (f.crew.countP fun x => x.team == team) + if team = enemyTeamID ∧ f.bot ≠ 0 then 1 else 0

def standing (team : Nat) : Nat :=
  (f.crew.countP fun x => x.team == team && f.lifeOf x.entity == .alive) +
    if team = enemyTeamID ∧ f.bot ≠ 0 ∧ f.lifeOf f.bot = .alive then 1 else 0

def sessionBy (entity : Nat) : Option SessionId :=
  (f.crew.find? fun x => x.entity == entity).map Member.s

def tally : Field := f.note (.standing (f.standing localTeamID) (f.standing enemyTeamID))

def credit (victim killer : Nat) : Field :=
  let f := { f with deaths := bump f.deaths victim 1 65536 }.note (.died victim killer)
  if killer ≠ 0 ∧ teamOf killer ≠ teamOf victim then
    { f with
      kills := bump f.kills killer 1 65536
      firstBlood := if f.firstBlood = 0 then killer else f.firstBlood }.note
      (.killed victim killer (f.sessionBy killer))
  else f

def finalize (entity : Nat) (ks : KnockState) : Field :=
  let f := f.credit entity ks.killer
  { f with
    life := Function.update f.life entity (some .dead)
    hp := Function.update f.hp entity (some 0)
    knock := Function.update f.knock entity none
    rescues := Function.update f.rescues entity none }.tally

def finalizeFallen (team : Nat) (f : Field) (entity : Nat) : Field :=
  match f.knock entity with
  | some ks => if teamOf entity = team ∧ f.lifeOf entity = .knocked then f.finalize entity ks else f
  | none => f

def knockDown (victim : Nat) (ks : KnockState) : Field :=
  { f with
    life := Function.update f.life victim (some .knocked)
    knock := Function.update f.knock victim (some ks)
    hp := Function.update f.hp victim (some knockdownHP) }.tally

def kill (victim killer : Nat) : Field :=
  let f := f.credit victim killer
  { f with
    life := Function.update f.life victim (some .dead)
    hp := Function.update f.hp victim (some 0) }.tally

-- `order`: the order in which the records of a fallen team are visited.
def downOrKill (victim attacker : Nat) (ks : KnockState) (order : List Nat) : Field :=
  let f := f.note (.struck victim attacker)
  if f.size (teamOf victim) ≤ 1 then f.kill victim attacker
  else
    let f := f.knockDown victim ks
    if f.standing (teamOf victim) = 0 then order.foldl (finalizeFallen (teamOf victim)) f else f

def creditDamage (victim attacker dmg : Nat) : Field :=
  if attacker ≠ 0 ∧ teamOf attacker ≠ teamOf victim then
    { f with damage := bump f.damage attacker dmg (2 ^ 32) }.note (.hurt attacker victim dmg)
  else f

def damageKnocked (victim attacker dmg : Nat) : Field :=
  match f.knock victim with
  | none => f
  | some ks =>
    let f := f.creditDamage victim attacker dmg
    if ks.hp ≤ dmg then
      { f with hp := Function.update f.hp victim (some 0) }.finalize victim ks
    else
      { f with
        knock := Function.update f.knock victim (some { ks with hp := ks.hp - dmg })
        hp := Function.update f.hp victim (some (ks.hp - dmg)) }

def applyDamage (victim attacker dmg : Nat) (ks : KnockState) (order : List Nat) : Field :=
  if f.roundOver then f
  else
    match f.lifeOf victim with
    | .knocked => f.damageKnocked victim attacker dmg
    | .dead => f
    | .alive =>
      match f.hp victim with
      | none => f
      | some cur =>
        if cur = 0 then f
        else
          let left := if cur ≤ dmg then 0 else cur - dmg
          let f := { f with hp := Function.update f.hp victim (some left) }.creditDamage victim
            attacker dmg
          if left = 0 then f.downOrKill victim attacker ks order else f

def bleed (now : Int) (f : Field) (entity : Nat) : Field :=
  match f.knock entity with
  | none => f
  | some ks =>
    if now < ks.deadline then f
    else if ks.hp ≤ knockBleedAmt then f.finalize entity ks
    else
      { f with
        knock := Function.update f.knock entity
          (some { ks with deadline := ks.deadline + knockBleedEvery, hp := ks.hp - knockBleedAmt })
        hp := Function.update f.hp entity (some (ks.hp - knockBleedAmt)) }

def startRescue (now : Int) (reviver target startMs : Nat) : Field :=
  if f.lifeOf target ≠ .knocked ∨ f.lifeOf reviver ≠ .alive ∨ teamOf reviver ≠ teamOf target then f
  else if (f.rescues target).isSome then f
  else
    let r : RescueState := ⟨reviver, target, startMs, now + reviveDuration⟩
    { f with rescues := Function.update f.rescues target (some r) }

def stopRescue (reviver target : Nat) : Field :=
  match f.rescues target with
  | some r =>
    if r.reviver = reviver then { f with rescues := Function.update f.rescues target none } else f
  | none => f

def completeRescue (r : RescueState) : Field :=
  ({ f with
    life := Function.update f.life r.target (some .alive)
    hp := Function.update f.hp r.target (some reviveHP)
    knock := Function.update f.knock r.target none }.note (.rescued r.target r.reviver)).tally

def rescueTick (now : Int) (f : Field) (target : Nat) : Field :=
  match f.rescues target with
  | none => f
  | some r =>
    if f.lifeOf target ≠ .knocked ∨ f.lifeOf r.reviver ≠ .alive then
      { f with rescues := Function.update f.rescues target none }
    else if now < r.completeAt then f
    else { f with rescues := Function.update f.rescues target none }.completeRescue r

def raise (f : Field) (entity : Nat) : Field :=
  { f with
    life := Function.update f.life entity (some .alive)
    hp := Function.update f.hp entity (some f.maxHP) }

def raiseMember (f : Field) (x : Member) : Field := f.raise x.entity

def raiseBot : Field := if f.bot ≠ 0 then f.raise f.bot else f

def reviveAll : Field :=
  { (f.crew.foldl raiseMember f).raiseBot with
    knock := fun _ => none
    rescues := fun _ => none
    roundOver := false }.note .reset

def leave (s : SessionId) (entity : Nat) : Field :=
  { f with
    crew := f.crew.filter fun x => decide (x.s ≠ s)
    hp := Function.update f.hp entity none
    life := Function.update f.life entity none
    knock := Function.update f.knock entity none }.tally

def retireBot : Field :=
  if f.bot = 0 then f
  else
    { f with
      bot := 0
      hp := Function.update f.hp f.bot none
      life := Function.update f.life f.bot none
      kills := Function.update f.kills f.bot none
      deaths := Function.update f.deaths f.bot none
      damage := Function.update f.damage f.bot none }.tally

def nextSlot : Nat := (f.slot + 1) % 256

def enlist (s : SessionId) (team : Nat) : Field :=
  { f with
    slot := f.nextSlot
    crew := f.crew ++ [⟨s, team * 2 ^ 24 + f.nextSlot, team⟩] }

def join (s : SessionId) (team : Nat) : Field :=
  (((f.enlist s team).raise (team * 2 ^ 24 + f.nextSlot)).note
    (.seated (team * 2 ^ 24 + f.nextSlot))).retireBot

def setup (s : SessionId) (team maxHP : Nat) : Field :=
  { f.enlist s team with
    slot := (f.nextSlot + 1) % 256
    bot := 0
    begun := false
    maxHP := maxHP }

def spawnBot : Field :=
  { f with
    bot := botEntityID
    life := Function.update f.life botEntityID (some .alive)
    hp := Function.update f.hp botEntityID (some f.maxHP) }.note (.seated botEntityID)

def clear : Field :=
  { f with
    life := fun _ => none
    hp := fun _ => none
    knock := fun _ => none
    rescues := fun _ => none
    kills := fun _ => none
    deaths := fun _ => none
    damage := fun _ => none }

def initHP : Field := ((f.crew.foldl raiseMember f.clear).raiseBot).note .reset

def begin_ : Field := { { f with begun := true }.initHP with phase := .setupBind }

def score (round winner : Nat) (next : CsPhase) : Field :=
  { f.note (.scored round winner) with
    roundOver := true
    zoneOn := false
    firstBlood := 0
    phase := next }

def startFight (zone : Bool) : Field :=
  { f with phase := .fight, zoneOn := f.zoneOn || zone }.note
    (.fight (f.standing localTeamID) (f.standing enemyTeamID))

def heal (entity hp : Nat) : Field := { f with hp := Function.update f.hp entity (some hp) }

-- What a knockdown records, and an order that visits every record of the match.
structure Falls (victim attacker : Nat) (ks : KnockState) (order : List Nat) : Prop where
  hp : ks.hp = knockdownHP
  killer : ks.killer = attacker
  visits : ∀ e, f.knock e ≠ none ∨ e = victim → e ∈ order

-- What no hit, no knock and no rescue changes.
structure Stage where
  crew : List Member
  slot : Nat
  bot : Nat
  roundOver : Bool
  phase : CsPhase
  started : Bool
  zoneOn : Bool
  begun : Bool
  maxHP : Nat

def stage : Stage :=
  ⟨f.crew, f.slot, f.bot, f.roundOver, f.phase, f.started, f.zoneOn, f.begun, f.maxHP⟩

variable {f} {victim attacker dmg entity : Nat} {ks : KnockState} {order : List Nat} {now : Int}

@[simp] theorem stage_note (d : Deed) : (f.note d).stage = f.stage := rfl

@[simp] theorem stage_tally : f.tally.stage = f.stage := rfl

@[simp] theorem stage_credit : (f.credit victim attacker).stage = f.stage := by
  unfold credit
  dsimp only
  split <;> rfl

@[simp] theorem stage_finalize : (f.finalize entity ks).stage = f.stage :=
  stage_credit

theorem stage_foldl {β : Type} {t : Field → β → Field} (h : ∀ f b, (t f b).stage = f.stage)
    (l : List β) (f : Field) : (l.foldl t f).stage = f.stage := by
  induction l generalizing f with
  | nil => rfl
  | cons b l ih => exact (ih _).trans (h f b)

@[simp] theorem stage_finalizeFallen {team : Nat} :
    (finalizeFallen team f entity).stage = f.stage := by
  unfold finalizeFallen
  split
  · split
    · exact stage_finalize
    · rfl
  · rfl

@[simp] theorem stage_kill : (f.kill victim attacker).stage = f.stage := stage_credit

@[simp] theorem stage_knockDown : (f.knockDown victim ks).stage = f.stage := rfl

@[simp] theorem stage_downOrKill : (f.downOrKill victim attacker ks order).stage = f.stage := by
  unfold downOrKill
  dsimp only
  split
  · exact stage_kill
  · split
    · exact stage_foldl (fun _ _ => stage_finalizeFallen) _ _
    · rfl

@[simp] theorem stage_creditDamage : (f.creditDamage victim attacker dmg).stage = f.stage := by
  unfold creditDamage
  split <;> rfl

@[simp] theorem stage_damageKnocked : (f.damageKnocked victim attacker dmg).stage = f.stage := by
  unfold damageKnocked
  split
  · rfl
  · dsimp only
    split
    · exact stage_finalize.trans stage_creditDamage
    · exact stage_creditDamage

@[simp] theorem stage_applyDamage :
    (f.applyDamage victim attacker dmg ks order).stage = f.stage := by
  unfold applyDamage
  split
  · rfl
  split
  · exact stage_damageKnocked
  · rfl
  split
  · rfl
  split
  · rfl
  dsimp only
  rename_i cur _ _
  generalize (if cur ≤ dmg then 0 else cur - dmg) = left
  split
  · exact stage_downOrKill.trans stage_creditDamage
  · exact stage_creditDamage

@[simp] theorem stage_bleed : (f.bleed now entity).stage = f.stage := by
  unfold bleed
  split
  · rfl
  split
  · rfl
  split
  · exact stage_finalize
  · rfl

@[simp] theorem stage_startRescue {reviver target startMs : Nat} :
    (f.startRescue now reviver target startMs).stage = f.stage := by
  unfold startRescue
  split
  · rfl
  split <;> rfl

@[simp] theorem stage_stopRescue {reviver target : Nat} :
    (f.stopRescue reviver target).stage = f.stage := by
  unfold stopRescue
  split
  · split <;> rfl
  · rfl

@[simp] theorem stage_rescueTick {target : Nat} : (f.rescueTick now target).stage = f.stage := by
  unfold rescueTick
  split
  · rfl
  split
  · rfl
  split <;> rfl

@[simp] theorem stage_raise : (f.raise entity).stage = f.stage := rfl

@[simp] theorem stage_raiseBot : f.raiseBot.stage = f.stage := by
  unfold raiseBot
  split <;> rfl

theorem stage_raiseAll (l : List Member) (f : Field) : (l.foldl raiseMember f).stage = f.stage :=
  stage_foldl (t := raiseMember) (fun _ _ => rfl) l f

@[simp] theorem stage_reviveAll : f.reviveAll.stage = { f.stage with roundOver := false } := by
  have h : (f.crew.foldl raiseMember f).raiseBot.stage = f.stage :=
    stage_raiseBot.trans (stage_raiseAll _ _)
  unfold reviveAll
  rw [← h]
  rfl

@[simp] theorem stage_initHP : f.initHP.stage = f.stage := by
  unfold initHP
  rw [stage_note, stage_raiseBot, stage_raiseAll]
  rfl

@[simp] theorem stage_retireBot : f.retireBot.stage = { f.stage with bot := 0 } := by
  unfold retireBot
  split
  · rename_i h
    simp [stage, h]
  · rfl

@[simp] theorem stage_join {s : SessionId} {team : Nat} : (f.join s team).stage =
    { f.stage with
      slot := f.nextSlot
      crew := f.crew ++ [⟨s, team * 2 ^ 24 + f.nextSlot, team⟩]
      bot := 0 } := by
  unfold join
  rw [stage_retireBot]
  rfl

end Field

end MatchServer
