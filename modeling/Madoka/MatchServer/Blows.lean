import Madoka.MatchServer.Crews
import Madoka.MatchServer.Deeds
import Mathlib.Logic.Relation

namespace MatchServer

open Lib Relation

namespace Field

variable {f g : Field} {victim attacker dmg e : Nat} {ks : KnockState} {order : List Nat}
  {now : Int} {l : Label} {d : Deed}

@[simp] theorem note_life : (f.note d).life = f.life := rfl

@[simp] theorem note_hp : (f.note d).hp = f.hp := rfl

@[simp] theorem note_knock : (f.note d).knock = f.knock := rfl

@[simp] theorem note_rescues : (f.note d).rescues = f.rescues := rfl

@[simp] theorem tally_life : f.tally.life = f.life := rfl

@[simp] theorem tally_hp : f.tally.hp = f.hp := rfl

@[simp] theorem tally_knock : f.tally.knock = f.knock := rfl

@[simp] theorem tally_rescues : f.tally.rescues = f.rescues := rfl

-- Who lives and bleeds, to which a note in the log is nothing.
def body (f : Field) : (Nat → Option LifeState) × (Nat → Option Nat) ×
    (Nat → Option KnockState) × (Nat → Option RescueState) :=
  (f.life, f.hp, f.knock, f.rescues)

theorem body_credit : (f.credit victim attacker).body = f.body := by
  unfold credit
  dsimp only
  split <;> rfl

theorem body_creditDamage : (f.creditDamage victim attacker dmg).body = f.body := by
  unfold creditDamage
  split <;> rfl

@[simp] theorem credit_life : (f.credit victim attacker).life = f.life :=
  congrArg (fun b => b.1) (body_credit (f := f))

@[simp] theorem credit_hp : (f.credit victim attacker).hp = f.hp :=
  congrArg (fun b => b.2.1) (body_credit (f := f))

@[simp] theorem credit_knock : (f.credit victim attacker).knock = f.knock :=
  congrArg (fun b => b.2.2.1) (body_credit (f := f))

@[simp] theorem credit_rescues : (f.credit victim attacker).rescues = f.rescues :=
  congrArg (fun b => b.2.2.2) (body_credit (f := f))

@[simp] theorem creditDamage_life : (f.creditDamage victim attacker dmg).life = f.life :=
  congrArg (fun b => b.1) (body_creditDamage (f := f))

@[simp] theorem creditDamage_hp : (f.creditDamage victim attacker dmg).hp = f.hp :=
  congrArg (fun b => b.2.1) (body_creditDamage (f := f))

@[simp] theorem creditDamage_knock : (f.creditDamage victim attacker dmg).knock = f.knock :=
  congrArg (fun b => b.2.2.1) (body_creditDamage (f := f))

@[simp] theorem creditDamage_rescues : (f.creditDamage victim attacker dmg).rescues = f.rescues :=
  congrArg (fun b => b.2.2.2) (body_creditDamage (f := f))

@[simp] theorem finalize_life :
    (f.finalize e ks).life = Function.update f.life e (some .dead) := by
  simp [finalize]

@[simp] theorem finalize_hp : (f.finalize e ks).hp = Function.update f.hp e (some 0) := by
  simp [finalize]

@[simp] theorem finalize_knock : (f.finalize e ks).knock = Function.update f.knock e none := by
  simp [finalize]

@[simp] theorem finalize_rescues :
    (f.finalize e ks).rescues = Function.update f.rescues e none := by
  simp [finalize]

@[simp] theorem kill_life :
    (f.kill victim attacker).life = Function.update f.life victim (some .dead) := by
  simp [kill]

@[simp] theorem kill_hp : (f.kill victim attacker).hp = Function.update f.hp victim (some 0) := by
  simp [kill]

@[simp] theorem kill_knock : (f.kill victim attacker).knock = f.knock := by
  simp [kill]

@[simp] theorem kill_rescues : (f.kill victim attacker).rescues = f.rescues := by
  simp [kill]

@[simp] theorem knockDown_life :
    (f.knockDown victim ks).life = Function.update f.life victim (some .knocked) := rfl

@[simp] theorem knockDown_hp :
    (f.knockDown victim ks).hp = Function.update f.hp victim (some knockdownHP) := rfl

@[simp] theorem knockDown_knock :
    (f.knockDown victim ks).knock = Function.update f.knock victim (some ks) := rfl

@[simp] theorem knockDown_rescues : (f.knockDown victim ks).rescues = f.rescues := rfl

def fatal (f : Field) (victim attacker dmg : Nat) : Field :=
  ({ f with hp := Function.update f.hp victim (some 0) }.creditDamage victim attacker dmg).note
    (.struck victim attacker)

@[simp] theorem fatal_life : (f.fatal victim attacker dmg).life = f.life := by
  simp [fatal]

@[simp] theorem fatal_hp :
    (f.fatal victim attacker dmg).hp = Function.update f.hp victim (some 0) := by
  simp [fatal]

@[simp] theorem fatal_knock : (f.fatal victim attacker dmg).knock = f.knock := by
  simp [fatal]

@[simp] theorem fatal_rescues : (f.fatal victim attacker dmg).rescues = f.rescues := by
  simp [fatal]

@[simp] theorem stage_fatal : (f.fatal victim attacker dmg).stage = f.stage :=
  stage_creditDamage

theorem finalize_hp_update {n : Option Nat} :
    { f with hp := Function.update f.hp e n }.finalize e ks = f.finalize e ks := by
  have hc : ({ f with hp := Function.update f.hp e n } : Field).credit e ks.killer =
      { f.credit e ks.killer with hp := Function.update f.hp e n } := by
    unfold credit
    dsimp only
    split <;> rfl
  unfold finalize
  rw [hc]
  simp only [credit_hp, Function.update_idem]

-- The steps of which a hit and a bleed are made.
inductive Blow (now : Int) : Label → Field → Field → Prop where
  | hurt {f : Field} {victim attacker dmg cur : Nat} : f.roundOver = false → f.lifeOf victim = .alive →
    f.hp victim = some cur → dmg < cur → Blow now (.hit victim attacker dmg) f
      ({ f with hp := Function.update f.hp victim (some (cur - dmg)) }.creditDamage victim attacker
        dmg)
  | slain {f : Field} {victim attacker dmg cur : Nat} : f.roundOver = false → f.lifeOf victim = .alive →
    f.hp victim = some cur → 0 < cur → cur ≤ dmg → f.size (teamOf victim) ≤ 1 →
    Blow now (.hit victim attacker dmg) f ((f.fatal victim attacker dmg).kill victim attacker)
  | downed {f : Field} {victim attacker dmg cur : Nat} {ks : KnockState} : f.roundOver = false → f.lifeOf victim = .alive →
    f.hp victim = some cur → 0 < cur → cur ≤ dmg → 1 < f.size (teamOf victim) →
    ks.hp = knockdownHP → ks.killer = attacker →
    Blow now (.hit victim attacker dmg) f ((f.fatal victim attacker dmg).knockDown victim ks)
  | drained {f : Field} {victim attacker dmg : Nat} {ks : KnockState} : f.roundOver = false → f.lifeOf victim = .knocked →
    f.knock victim = some ks → dmg < ks.hp → Blow now (.hit victim attacker dmg) f
      { f.creditDamage victim attacker dmg with
        knock := Function.update f.knock victim (some { ks with hp := ks.hp - dmg })
        hp := Function.update f.hp victim (some (ks.hp - dmg)) }
  | finished {f : Field} {victim attacker dmg : Nat} {ks : KnockState} : f.roundOver = false → f.lifeOf victim = .knocked →
    f.knock victim = some ks → ks.hp ≤ dmg → Blow now (.hit victim attacker dmg) f
      ((f.creditDamage victim attacker dmg).finalize victim ks)
  | wiped {f : Field} {victim attacker dmg e : Nat} {ks : KnockState} : f.roundOver = false → f.knock e = some ks →
    f.lifeOf e = .knocked → teamOf e = teamOf victim →
    Blow now (.hit victim attacker dmg) f (f.finalize e ks)
  | bled {f : Field} {e : Nat} {ks : KnockState} : f.knock e = some ks → knockBleedAmt < ks.hp → Blow now .bleed f
      { f with
        knock := Function.update f.knock e
          (some { ks with deadline := ks.deadline + knockBleedEvery, hp := ks.hp - knockBleedAmt })
        hp := Function.update f.hp e (some (ks.hp - knockBleedAmt)) }
  | bledOut {f : Field} {e : Nat} {ks : KnockState} : f.knock e = some ks → ks.deadline ≤ now → ks.hp ≤ knockBleedAmt →
    Blow now .bleed f (f.finalize e ks)

def Blows (now : Int) (l : Label) : Field → Field → Prop := ReflTransGen (Blow now l)

theorem roundOver_of_stage (h : g.stage = f.stage) : g.roundOver = f.roundOver :=
  congrArg Stage.roundOver h

theorem blows_wipe (h : f.roundOver = false) :
    Blows now (.hit victim attacker dmg) f (order.foldl (finalizeFallen (teamOf victim)) f) := by
  induction order generalizing f with
  | nil => exact ReflTransGen.refl
  | cons e order ih =>
    have hstep : Blows now (.hit victim attacker dmg) f (finalizeFallen (teamOf victim) f e) := by
      unfold finalizeFallen
      split
      · rename_i ks hks
        split
        · rename_i hc
          exact ReflTransGen.single (.wiped h hks hc.2 hc.1)
        · exact ReflTransGen.refl
      · exact ReflTransGen.refl
    exact hstep.trans (ih ((roundOver_of_stage stage_finalizeFallen).trans h))

-- One blow at most, after which a team that has fallen is wiped.
def Struck (now : Int) (victim attacker dmg : Nat) (order : List Nat) (f g : Field) : Prop :=
  g = f ∨ ∃ k, Blow now (.hit victim attacker dmg) f k ∧
    (g = k ∨ k.roundOver = false ∧ g = order.foldl (finalizeFallen (teamOf victim)) k)

theorem struck_hit (hf : f.Falls victim attacker ks order) :
    Struck now victim attacker dmg order f (f.applyDamage victim attacker dmg ks order) := by
  have hone : ∀ {k : Field}, Blow now (.hit victim attacker dmg) f k →
      Struck now victim attacker dmg order f k := fun {k} hb => Or.inr ⟨k, hb, Or.inl rfl⟩
  unfold applyDamage
  split
  · exact Or.inl rfl
  rename_i hover
  rw [Bool.not_eq_true] at hover
  split
  · rename_i hlife
    unfold damageKnocked
    split
    · exact Or.inl rfl
    rename_i k hk
    dsimp only
    split
    · rename_i hle
      rw [finalize_hp_update]
      exact hone (.finished hover hlife hk hle)
    · rename_i hlt
      have hb : Blow now (.hit victim attacker dmg) f _ :=
        .drained hover hlife hk (Nat.lt_of_not_le hlt)
      refine hone ?_
      simpa using hb
  · exact Or.inl rfl
  · rename_i hlife
    split
    · exact Or.inl rfl
    rename_i cur hcur
    split
    · exact Or.inl rfl
    rename_i hpos
    dsimp only
    by_cases hle : cur ≤ dmg
    · rw [if_pos hle, if_pos rfl]
      have hsize : ∀ team, (f.fatal victim attacker dmg).size team = f.size team := by
        intro team
        have hcrew : (f.fatal victim attacker dmg).crew = f.crew := congrArg Stage.crew stage_fatal
        have hbot : (f.fatal victim attacker dmg).bot = f.bot := congrArg Stage.bot stage_fatal
        simp only [size, hcrew, hbot]
      change Struck now _ _ _ _ f
        (if (f.fatal victim attacker dmg).size (teamOf victim) ≤ 1 then _ else _)
      rw [hsize]
      split
      · rename_i hone'
        exact hone (.slain hover hlife hcur (Nat.pos_of_ne_zero hpos) hle hone')
      · rename_i hmany
        have hdown : Blow now (.hit victim attacker dmg) f
            ((f.fatal victim attacker dmg).knockDown victim ks) :=
          .downed hover hlife hcur (Nat.pos_of_ne_zero hpos) hle (Nat.lt_of_not_le hmany) hf.hp
            hf.killer
        split
        · refine Or.inr ⟨_, hdown, Or.inr ⟨?_, rfl⟩⟩
          exact (roundOver_of_stage (stage_knockDown.trans stage_fatal)).trans hover
        · exact hone hdown
    · rw [if_neg hle, if_neg (by omega)]
      exact hone (.hurt hover hlife hcur (Nat.lt_of_not_le hle))

theorem blows_hit (hf : f.Falls victim attacker ks order) :
    Blows now (.hit victim attacker dmg) f (f.applyDamage victim attacker dmg ks order) := by
  rcases @struck_hit _ _ _ dmg _ _ now hf with heq | ⟨k, hb, heq | ⟨hover, heq⟩⟩
  · rw [heq]
    exact ReflTransGen.refl
  · rw [heq]
    exact ReflTransGen.single hb
  · rw [heq]
    exact (ReflTransGen.single hb).trans (blows_wipe hover)

theorem blows_bleed : Blows now .bleed f (f.bleed now e) := by
  unfold bleed
  split
  · exact ReflTransGen.refl
  rename_i ks hks
  split
  · exact ReflTransGen.refl
  rename_i hdue
  split
  · rename_i hlow
    exact ReflTransGen.single (.bledOut hks (not_lt.mp hdue) hlow)
  · rename_i hmore
    exact ReflTransGen.single (.bled hks (Nat.lt_of_not_le hmore))

theorem Blows.invariant {I : Field → Prop} (h : Blows now l f g) (hf : I f)
    (hstep : ∀ {f g}, I f → Blow now l f g → I g) : I g := by
  induction h with
  | refl => exact hf
  | tail _ hb ih => exact hstep ih hb

theorem grows_fatal : Grows f (f.fatal victim attacker dmg) :=
  Adds.note (Adds.after (adds_creditDamage fun _ _ _ => trivial) rfl) trivial

theorem grows_blow (hb : Blow now l f g) : Grows f g := by
  cases hb with
  | hurt _ _ _ _ => exact Adds.after (adds_creditDamage fun _ _ _ => trivial) rfl
  | slain _ _ _ _ _ _ =>
    exact grows_fatal.trans
      (adds_kill (fun _ _ => trivial) (fun _ _ _ => trivial) fun _ _ => trivial)
  | downed _ _ _ _ _ _ _ _ => exact grows_fatal.trans (adds_knockDown fun _ _ => trivial)
  | drained _ _ _ _ => exact (adds_creditDamage fun _ _ _ => trivial).of_eq rfl
  | finished _ _ _ _ =>
    exact (adds_creditDamage fun _ _ _ => trivial).trans
      (adds_finalize (fun _ _ => trivial) (fun _ _ _ => trivial) fun _ _ => trivial)
  | wiped _ _ _ _ =>
    exact adds_finalize (fun _ _ => trivial) (fun _ _ _ => trivial) fun _ _ => trivial
  | bled _ _ => exact adds_refl.of_eq rfl
  | bledOut _ _ _ =>
    exact adds_finalize (fun _ _ => trivial) (fun _ _ _ => trivial) fun _ _ => trivial

end Field

end MatchServer
