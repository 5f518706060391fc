import Madoka.MatchServer.Field
import Madoka.MatchServer.Rosters

namespace MatchServer

open Lib

def Match.view (g : Match) (member : SessionId → Member) : Field where
  crew := g.players.map member
  slot := g.nextSlot
  bot := g.botEntity
  life := fun e => g.life.lookup e
  hp := fun e => g.hp.lookup e
  knock := fun e => g.knock.lookup e
  rescues := fun e => g.rescues.lookup e
  kills := fun e => g.kills.lookup e
  deaths := fun e => g.deaths.lookup e
  damage := fun e => g.damage.lookup e
  roundOver := g.roundOver
  firstBlood := g.firstBlood
  phase := g.phase
  started := g.started
  zoneOn := g.zoneOn
  begun := g.loop == .running || g.loop == .stopped
  maxHP := g.settings.maxHP
  deeds := g.deeds

namespace Core

variable (c : Core) (m : MatchRef)

def member (s : SessionId) : Member := ⟨s, (c.ss s).entityID, (c.ss s).team⟩

def field : Field := (c.ms m).view c.member

def Turns (m : MatchRef) (c d : Core) (g : Field) : Prop := d.field = Function.update c.field m g

def offField : List Part :=
  [.walls, .ground, .flags, .reseed, .identity, .token, .net, .kit, .roundKills, .body,
    .registry, .posts, .published, .moment]

variable {w : World} {c d e : Core} {s : SessionId} {m : MatchRef} {g k : Field}

theorem Turns.eq (h : Turns m c d g) : d.field m = g := by
  rw [h, Function.update_self]

theorem Turns.trans (h : Turns m c d g) (h' : Turns m d e k) : Turns m c e k := by
  unfold Turns at *
  rw [h', h, Function.update_idem]

theorem Turns.of_field (h : Turns m c d g) (he : e.field = d.field) : Turns m c e g :=
  he.trans h

theorem turns_of_field (h : d.field = c.field) : Turns m c d (c.field m) := by
  rw [Turns, Function.update_eq_self, h]

theorem teamAlive_eq (team : Nat) : c.teamAlive m team = (c.field m).standing team := by
  simp only [teamAlive, Field.standing, field, Match.view, List.countP_map]
  rfl

theorem teamSize_eq (team : Nat) : c.teamSize m team = (c.field m).size team := by
  simp only [teamSize, Field.size, field, Match.view, List.countP_map]
  rfl

theorem sessionByEntity_eq (entity : Nat) :
    c.sessionByEntity m entity = (c.field m).sessionBy entity := by
  simp only [sessionByEntity, Field.sessionBy, field, Match.view, List.find?_map, Option.map_map]
  exact Option.map_id'.symm

theorem turns_onMatch (f : Match → Match) :
    Turns m c (c.onMatch m f) ((f (c.ms m)).view c.member) := by
  funext m'
  by_cases h : m' = m
  · subst h
    simp only [field, onMatch_ms, if_true, Function.update_self]
    rfl
  · simp only [field, onMatch_ms, if_neg h, Function.update_of_ne h]
    rfl

theorem turns_note (x : Deed) : Turns m c (c.note m x) ((c.field m).note x) :=
  turns_onMatch _

theorem view_of_same {g h : Match} {member : SessionId → Member}
    (hs : ∀ x : Part, x ∉ offField → x.sameMatch g h) : h.view member = g.view member := by
  have h1 := hs .hp (by decide)
  have h2 := hs .life (by decide)
  have h3 := hs .knock (by decide)
  have h4 := hs .rescues (by decide)
  have h5 := hs .score (by decide)
  have h6 := hs .fell (by decide)
  have h7 := hs .roster (by decide)
  have h8 := hs .slots (by decide)
  have h9 := hs .bot (by decide)
  have h10 := hs .phase (by decide)
  have h15 := hs .zone (by decide)
  have h11 := hs .run (by decide)
  have h12 := hs .lock (by decide)
  have h13 := hs .settings (by decide)
  have h14 := hs .deeds (by decide)
  simp only [Part.sameMatch, Prod.mk.injEq] at *
  simp only [Match.view, h1, h2, h3, h4, h5, h6, h7, h8, h9, h10, h11, h12, h13, h14, h15]

theorem member_of_keeps {F : List Part} (h : Keeps F c d) (hF : Part.seat ∉ F) :
    d.member = c.member := by
  funext s
  have hs := (h _ hF).2.1 s
  simp only [Part.sameSession, Prod.mk.injEq] at hs
  simp only [member, hs]

theorem field_of_keeps {F : List Part} (h : Keeps F c d) (hF : F ⊆ offField) :
    d.field = c.field := by
  funext m
  have hmem := member_of_keeps h fun hm => absurd (hF hm) (by decide)
  unfold field
  rw [hmem]
  exact view_of_same fun x hx => (h x fun hm => hx (hF hm)).1 m

theorem turns_keeps {F : List Part} (h : Keeps F c d) (hF : F ⊆ offField) :
    Turns m c d (c.field m) :=
  turns_of_field (field_of_keeps h hF)

theorem lookup_insert_fun {β : Type} (l : GoMap β) (e : Nat) (x : β) :
    (fun a => (l.insert e x).lookup a) = Function.update (fun a => l.lookup a) e (some x) := by
  funext a
  by_cases h : a = e
  · subst h
    simp
  · rw [Function.update_of_ne h, AList.lookup_insert_ne h]

theorem lookup_erase_fun {β : Type} (l : GoMap β) (e : Nat) :
    (fun a => (l.erase e).lookup a) = Function.update (fun a => l.lookup a) e none := by
  funext a
  by_cases h : a = e
  · subst h
    simp
  · rw [Function.update_of_ne h, AList.lookup_erase_ne h]

theorem lookup_incr_fun (l : GoMap Nat) (e by_ n : Nat) :
    (fun a => (incr l e by_ n).lookup a) = bump (fun a => l.lookup a) e by_ n :=
  lookup_insert_fun l e _

theorem Turns.keeps {F : List Part} (h : Turns m c d g) (hk : Keeps F d e) (hF : F ⊆ offField) :
    Turns m c e g :=
  h.of_field (field_of_keeps hk hF)

theorem Turns.onMatch {f : Match → Match} (F : Field → Field) (h : Turns m c d g)
    (hF : ∀ x, (f x).view d.member = F (x.view d.member)) :
    Turns m c (d.onMatch m f) (F g) := by
  have hf := turns_onMatch (c := d) (m := m) f
  rw [hF] at hf
  exact h.trans (h.eq ▸ hf)

theorem Turns.note (h : Turns m c d g) (x : Deed) : Turns m c (d.note m x) (g.note x) :=
  h.onMatch (fun f => f.note x) fun _ => rfl

theorem Turns.tally (h : Turns m c d g) : Turns m c (d.tally m) g.tally := by
  unfold Core.tally
  rw [teamAlive_eq, teamAlive_eq, h.eq]
  exact h.note _

theorem Turns.killed (h : Turns m c d g) (victim killer : Nat) :
    Turns m c (d.note m (.killed victim killer (d.sessionByEntity m killer)))
      (g.note (.killed victim killer (g.sessionBy killer))) := by
  rw [sessionByEntity_eq, h.eq]
  exact h.note _

theorem turns_refl : Turns m c c (c.field m) := turns_of_field rfl

theorem Turns.ite {p : Prop} [Decidable p] {k : Field} (ht : p → Turns m c d g)
    (hf : ¬ p → Turns m c e k) : Turns m c (if p then d else e) (if p then g else k) := by
  split
  · exact ht ‹_›
  · exact hf ‹_›

theorem mem_visit {order keys : List Nat} {e : Nat} : e ∈ visit order keys ↔ e ∈ keys := by
  simp only [visit, List.mem_append, List.mem_filter, List.mem_dedup, decide_eq_true_eq]
  tauto

theorem turns_creditDeath {victim killer : Nat} :
    Turns m c (c.creditDeath m victim killer) ((c.field m).credit victim killer) := by
  have hd : Turns m c ((c.onMatch m fun g => { g with
      deaths := incr g.deaths victim 1 65536 }).note m (.died victim killer))
      ({ c.field m with deaths := bump (c.field m).deaths victim 1 65536 }.note
        (.died victim killer)) := by
    refine Turns.note (turns_refl.onMatch (fun f =>
      { f with deaths := bump f.deaths victim 1 65536 }) fun _ => ?_) _
    simp only [Match.view, lookup_incr_fun]
  unfold creditDeath Field.credit
  dsimp only
  refine Turns.ite (fun _ => ?_) fun _ => hd
  have hk : Turns m c ((((c.onMatch m fun g => { g with
      deaths := incr g.deaths victim 1 65536 }).note m (.died victim killer)).onMatch m
      fun g => { g with
        kills := incr g.kills killer 1 65536
        firstBlood := if g.firstBlood = 0 then killer else g.firstBlood }))
      { { c.field m with deaths := bump (c.field m).deaths victim 1 65536 }.note
          (.died victim killer) with
        kills := bump (c.field m).kills killer 1 65536
        firstBlood := if (c.field m).firstBlood = 0 then killer else (c.field m).firstBlood } := by
    refine hd.onMatch (fun f => { f with
      kills := bump f.kills killer 1 65536
      firstBlood := if f.firstBlood = 0 then killer else f.firstBlood }) fun _ => ?_
    simp only [Match.view, lookup_incr_fun]
    rfl
  split
  · refine (hk.killed victim killer).keeps (F := [.roundKills]) (Frame.onSession (Frame.refl _)
      fun x => ?_) (by decide)
    cases x <;> first | exact Or.inr fun _ => rfl | exact Or.inl (by decide)
  · exact hk.killed victim killer

theorem turns_emitDeath {victim killer observe bodyPart : Nat} {weapon skin : Int} {pos : Vec3}
    {system pending : Bool} (h : Turns m c d g) : Turns m c
      (d.emitDeath m victim killer weapon skin observe bodyPart pos system pending) g :=
  h.keeps keeps_emitDeath (by decide)

theorem turns_finalizeKnock {entity : Nat} {ks : KnockState} :
    Turns m c (c.finalizeKnock m entity ks) ((c.field m).finalize entity ks) := by
  refine turns_emitDeath (Turns.tally (turns_creditDeath.onMatch (fun f => { f with
    life := Function.update f.life entity (some .dead)
    hp := Function.update f.hp entity (some 0)
    knock := Function.update f.knock entity none
    rescues := Function.update f.rescues entity none }) fun _ => ?_))
  simp only [Match.view, lookup_insert_fun, lookup_erase_fun]

theorem turns_finalizeFallen {team entity : Nat} :
    Turns m c (finalizeFallen m team c entity) ((c.field m).finalizeFallen team entity) := by
  unfold finalizeFallen Field.finalizeFallen
  cases hk : (c.ms m).knock.lookup entity with
  | none =>
    have hf : (c.field m).knock entity = none := hk
    simp only [hf]
    exact turns_refl
  | some ks =>
    have hf : (c.field m).knock entity = some ks := hk
    simp only [hf]
    exact Turns.ite (fun _ => turns_finalizeKnock) fun _ => turns_refl

theorem turns_foldl {β : Type} {op : Core → β → Core} {op' : Field → β → Field}
    (h : ∀ c b, Turns m c (op c b) (op' (c.field m) b)) (l : List β) (c : Core) :
    Turns m c (l.foldl op c) (l.foldl op' (c.field m)) := by
  induction l generalizing c with
  | nil => exact turns_refl
  | cons b l ih =>
    have hl := ih (op c b)
    rw [(h c b).eq] at hl
    exact (h c b).trans hl

theorem turns_teamFellToZero {team : Nat} : ∃ order : List Nat,
    (∀ e, (c.field m).knock e ≠ none → e ∈ order) ∧
    Turns m c (c.teamFellToZero m team)
      (order.foldl (Field.finalizeFallen team) (c.field m)) := by
  refine ⟨visit c.order (c.ms m).knock.keys, fun e he => ?_, ?_⟩
  · refine mem_visit.mpr (AList.mem_keys.mp (AList.lookup_isSome.mp ?_))
    exact Option.isSome_iff_ne_none.mpr he
  · unfold teamFellToZero
    refine Turns.onMatch id (turns_foldl (fun _ _ => turns_finalizeFallen) _ _) fun _ => ?_
    rfl

theorem turns_knockPlayer {victim attacker bodyPart : Nat} : ∃ ks : KnockState,
    ks.hp = knockdownHP ∧ ks.killer = attacker ∧
    Turns m c (c.knockPlayer w m victim attacker bodyPart) ((c.field m).knockDown victim ks) := by
  unfold knockPlayer
  generalize c.resolveKillWeapon w m attacker = held
  obtain ⟨weapon, skin⟩ := held
  dsimp only
  refine ⟨⟨knockdownHP, c.now + knockBleedEvery, attacker, weapon, skin, bodyPart,
    c.deathPos m victim⟩, rfl, rfl, ?_⟩
  refine Turns.keeps (F := []) (Turns.tally (turns_refl.onMatch (fun f => { f with
    life := Function.update f.life victim (some .knocked)
    knock := Function.update f.knock victim (some _)
    hp := Function.update f.hp victim (some knockdownHP) }) fun _ => ?_))
    (Frame.refl _).broadcastData (by decide)
  simp only [Match.view, lookup_insert_fun]

theorem turns_killEntity {victim killer bodyPart : Nat} :
    Turns m c (c.killEntity w m victim killer bodyPart) ((c.field m).kill victim killer) := by
  refine turns_emitDeath (Turns.tally (turns_creditDeath.onMatch (fun f => { f with
    life := Function.update f.life victim (some .dead)
    hp := Function.update f.hp victim (some 0) }) fun _ => ?_))
  simp only [Match.view, lookup_insert_fun]

theorem turns_downOrKill {victim attacker bodyPart : Nat} : ∃ ks order,
    (c.field m).Falls victim attacker ks order ∧
    Turns m c (c.downOrKill w m victim attacker bodyPart)
      ((c.field m).downOrKill victim attacker ks order) := by
  have hn : Turns m c (c.note m (.struck victim attacker))
      ((c.field m).note (.struck victim attacker)) := turns_note _
  obtain ⟨ks, hhp, hkiller, hd⟩ :=
    @turns_knockPlayer w (c.note m (.struck victim attacker)) m victim attacker bodyPart
  obtain ⟨order, horder, hf⟩ := @turns_teamFellToZero
    ((c.note m (.struck victim attacker)).knockPlayer w m victim attacker bodyPart) m
    (teamOf victim)
  have hk := @turns_killEntity w (c.note m (.struck victim attacker)) m victim attacker bodyPart
  rw [hn.eq] at hd hk
  rw [(hn.trans hd).eq] at hf horder
  refine ⟨ks, order, ⟨hhp, hkiller, fun e he => horder e ?_⟩, ?_⟩
  · by_cases hv : e = victim
    · simp [Field.knockDown, Field.tally, Field.note, hv]
    · simpa [Field.knockDown, Field.tally, Field.note, hv] using he
  · unfold downOrKill Field.downOrKill
    dsimp only
    rw [teamSize_eq, hn.eq, teamAlive_eq, (hn.trans hd).eq]
    exact Turns.ite (fun _ => hn.trans hk) fun _ =>
      Turns.ite (fun _ => (hn.trans hd).trans hf) fun _ => hn.trans hd

theorem turns_creditDamage {victim attacker dmg : Nat} :
    Turns m c (c.creditDamage m victim attacker dmg)
      ((c.field m).creditDamage victim attacker dmg) := by
  refine Turns.ite (fun _ => Turns.note (turns_refl.onMatch (fun f =>
    { f with damage := bump f.damage attacker dmg (2 ^ 32) }) fun _ => ?_) _) fun _ => turns_refl
  simp only [Match.view, lookup_incr_fun]

theorem turns_damageKnocked {victim attacker dmg : Nat} :
    Turns m c (c.damageKnocked m victim attacker dmg)
      ((c.field m).damageKnocked victim attacker dmg) := by
  unfold damageKnocked Field.damageKnocked
  cases hk : (c.ms m).knock.lookup victim with
  | none =>
    have hf : (c.field m).knock victim = none := hk
    simp only [hf]
    exact turns_refl
  | some ks =>
    have hf : (c.field m).knock victim = some ks := hk
    simp only [hf]
    have hc := @turns_creditDamage c m victim attacker dmg
    refine Turns.ite (fun _ => ?_) fun _ => ?_
    · have hz := hc.onMatch (f := fun g => { g with hp := g.hp.insert victim 0 })
        (fun f => { f with hp := Function.update f.hp victim (some 0) }) fun _ => by
          simp only [Match.view, lookup_insert_fun]
      have hfin := @turns_finalizeKnock ((c.creditDamage m victim attacker dmg).onMatch m
        fun g => { g with hp := g.hp.insert victim 0 }) m victim ks
      rw [hz.eq] at hfin
      exact hz.trans hfin
    · refine hc.onMatch (fun f => { f with
        knock := Function.update f.knock victim (some { ks with hp := ks.hp - dmg })
        hp := Function.update f.hp victim (some (ks.hp - dmg)) }) fun _ => ?_
      simp only [Match.view, lookup_insert_fun]

theorem creditDamage_knock (f : Field) (victim attacker dmg : Nat) :
    (f.creditDamage victim attacker dmg).knock = f.knock := by
  unfold Field.creditDamage
  split <;> rfl

theorem turns_hit {victim attacker dmg bodyPart left : Nat} :
    Turns m c (((c.onMatch m fun g => { g with hp := g.hp.insert victim left }).creditDamage m
      victim attacker dmg).reportHit w m victim attacker dmg bodyPart)
      ({ c.field m with hp := Function.update (c.field m).hp victim (some left) }.creditDamage victim
        attacker dmg) := by
  have hp : Turns m c (c.onMatch m fun g => { g with hp := g.hp.insert victim left })
      { c.field m with hp := Function.update (c.field m).hp victim (some left) } := by
    refine turns_refl.onMatch
      (fun f => { f with hp := Function.update f.hp victim (some left) }) fun _ => ?_
    simp only [Match.view, lookup_insert_fun]
  have hc := @turns_creditDamage (c.onMatch m fun g => { g with hp := g.hp.insert victim left }) m
    victim attacker dmg
  rw [hp.eq] at hc
  exact (hp.trans hc).keeps keeps_reportHit (by decide)

theorem turns_applyDamage {victim attacker dmg bodyPart : Nat} : ∃ ks order,
    (c.field m).Falls victim attacker ks order ∧
    Turns m c (c.applyDamage w m victim attacker dmg bodyPart)
      ((c.field m).applyDamage victim attacker dmg ks order) := by
  have hhit := fun left => @turns_hit w c m victim attacker dmg bodyPart left
  obtain ⟨ks, order, hfalls, hdown⟩ := @turns_downOrKill w (((c.onMatch m fun g => { g with
    hp := g.hp.insert victim 0 }).creditDamage m victim attacker dmg).reportHit w m victim attacker
      dmg bodyPart) m victim attacker bodyPart
  rw [(hhit 0).eq] at hfalls hdown
  refine ⟨ks, order, ⟨hfalls.hp, hfalls.killer, fun e he => hfalls.visits e ?_⟩, ?_⟩
  · rw [creditDamage_knock]
    exact he
  · unfold applyDamage Field.applyDamage
    refine Turns.ite (fun _ => turns_refl) fun _ => ?_
    have hlife : (c.field m).lifeOf victim = (c.ms m).lifeOf victim := rfl
    have hhp : (c.field m).hp victim = (c.ms m).hp.lookup victim := rfl
    rw [hlife, hhp]
    cases (c.ms m).lifeOf victim with
    | knocked => exact turns_damageKnocked
    | dead => exact turns_refl
    | alive =>
      cases (c.ms m).hp.lookup victim with
      | none => exact turns_refl
      | some cur =>
        refine Turns.ite (fun _ => turns_refl) fun _ => ?_
        dsimp only
        by_cases hleft : cur ≤ dmg
        · simp only [if_pos hleft, if_true]
          exact (hhit 0).trans hdown
        · simp only [if_neg hleft, if_neg (show ¬ cur - dmg = 0 by omega)]
          exact hhit _

theorem turns_bleed {entity : Nat} :
    Turns m c (bleed m c entity) ((c.field m).bleed c.now entity) := by
  unfold bleed Field.bleed
  cases hk : (c.ms m).knock.lookup entity with
  | none =>
    have hf : (c.field m).knock entity = none := hk
    simp only [hf]
    exact turns_refl
  | some ks =>
    have hf : (c.field m).knock entity = some ks := hk
    simp only [hf]
    refine Turns.ite (fun _ => turns_refl) fun _ => Turns.ite (fun _ => turns_finalizeKnock)
      fun _ => ?_
    refine turns_refl.onMatch (fun f => { f with
      knock := Function.update f.knock entity
        (some { ks with deadline := ks.deadline + knockBleedEvery, hp := ks.hp - knockBleedAmt })
      hp := Function.update f.hp entity (some (ks.hp - knockBleedAmt)) }) fun _ => ?_
    simp only [Match.view, lookup_insert_fun]

theorem turns_startRescue {reviver target startMs : Nat} :
    Turns m c (c.startRescue m reviver target startMs)
      ((c.field m).startRescue c.now reviver target startMs) := by
  refine Turns.ite (fun _ => turns_refl) fun _ => Turns.ite (fun _ => turns_refl) fun _ => ?_
  refine Turns.keeps (F := []) (turns_refl.onMatch (fun f => { f with
    rescues := Function.update f.rescues target
      (some ⟨reviver, target, startMs, c.now + reviveDuration⟩) }) fun _ => ?_)
    (Frame.refl _).broadcastData (by decide)
  simp only [Match.view, lookup_insert_fun]

theorem turns_dropRescue {target : Nat} :
    Turns m c (c.onMatch m fun g => { g with rescues := g.rescues.erase target })
      { c.field m with rescues := Function.update (c.field m).rescues target none } := by
  refine turns_refl.onMatch
    (fun f => { f with rescues := Function.update f.rescues target none }) fun _ => ?_
  simp only [Match.view, lookup_erase_fun]

theorem turns_stopRescue {reviver target : Nat} :
    Turns m c (c.stopRescue m reviver target) ((c.field m).stopRescue reviver target) := by
  unfold stopRescue Field.stopRescue
  cases hr : (c.ms m).rescues.lookup target with
  | none =>
    have hf : (c.field m).rescues target = none := hr
    simp only [hf]
    exact turns_refl
  | some r =>
    have hf : (c.field m).rescues target = some r := hr
    simp only [hf]
    exact Turns.ite (fun _ => turns_dropRescue) fun _ => turns_refl

theorem turns_completeRescue {r : RescueState} :
    Turns m c (c.completeRescue m r) ((c.field m).completeRescue r) := by
  refine Turns.keeps (F := []) (Turns.tally (Turns.note (turns_refl.onMatch (fun f => { f with
    life := Function.update f.life r.target (some .alive)
    hp := Function.update f.hp r.target (some reviveHP)
    knock := Function.update f.knock r.target none }) fun _ => ?_) _))
    (Frame.refl _).broadcastData (by decide)
  simp only [Match.view, lookup_insert_fun, lookup_erase_fun]

theorem turns_rescueTick {target : Nat} :
    Turns m c (rescueTick m c target) ((c.field m).rescueTick c.now target) := by
  unfold rescueTick Field.rescueTick
  cases hr : (c.ms m).rescues.lookup target with
  | none =>
    have hf : (c.field m).rescues target = none := hr
    simp only [hf]
    exact turns_refl
  | some r =>
    have hf : (c.field m).rescues target = some r := hr
    simp only [hf]
    refine Turns.ite (fun _ => turns_dropRescue) fun _ => Turns.ite (fun _ => turns_refl)
      fun _ => ?_
    have hd := @turns_dropRescue c m target
    have hc := @turns_completeRescue
      (c.onMatch m fun g => { g with rescues := g.rescues.erase target }) m r
    rw [hd.eq] at hc
    exact hd.trans hc

end Core

end MatchServer
