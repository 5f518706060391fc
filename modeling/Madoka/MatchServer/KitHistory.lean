import Madoka.Lib.Trail
import Madoka.MatchServer.Hands

namespace MatchServer

open Lib

def opsOf (s : SessionId) (ops : List (SessionId × Kit.Op)) : List Kit.Op :=
  (ops.filter fun o => decide (o.1 = s)).map fun o => o.2

-- lossBonus as a natural number.
def CsEvents.lossDue (e : CsEvents) (streak : Nat) : Nat :=
  e.lossRound + if 3 ≤ streak then e.lossStreak3 else if streak = 2 then e.lossStreak2 else 0

theorem CsEvents.lossDue_mod (e : CsEvents) (streak : Nat) :
    e.lossBonus streak % 2 ^ 32 = e.lossDue streak % 2 ^ 32 := by
  unfold lossBonus lossDue
  split
  · rw [Nat.mod_mod]
  · split
    · rw [Nat.mod_mod]
    · rw [Nat.add_zero]

theorem Kit.pay_mod (k : Kit) {aw aw' : Nat} (h : aw % 2 ^ 32 = aw' % 2 ^ 32) : k.pay aw = k.pay aw' := by
  unfold pay
  rw [Nat.add_mod, h, ← Nat.add_mod]

-- What the server checked before it did an operation that a packet asked for.
def Kit.Sound (x : Kit.Setting) (k : Kit) : Kit.Op → Prop
  | .buy item qty => 0 < qty ∧ (item.itemID = itemMushroom → k.mushrooms < mushroomsPerRound) ∧
      (x.w.cfg.unlimitedMoneyTest = false → item.price * qty % 2 ^ 32 ≤ k.coins) ∧
      ∃ settings id, x.w.shopItemByID settings id = some item
  | .install it isPrimary => weaponClass it.data = some isPrimary
  | .take it => weaponClass it.data = none
  | .drop unique => unique ≠ 0 ∧ k.clientUIDs.lookup unique ≠ none
  | .gloo => (k.glooCount x.order).2 ≠ 0
  | _ => True

-- One operation with what it reads, on a kit.
def Kit.act (a : Kit.Setting × Kit.Op) (k : Kit) : Kit := k.apply a.1 a.2

namespace Core

variable (w : World) (c d : Core) (s : SessionId) (m : MatchRef)

-- The income of a round's end, a natural number: nothing of it wraps.
def award (winner base firstBlood : Nat) (p : SessionId) : Nat :=
  let ev := (c.ms m).settings.events
  base + ev.perKill * (c.ss p).roundKills +
    (if (c.ss p).team = winner then ev.winRound
      else ev.lossDue (ofTeam (c.ss p).team (c.ms m).lossStreak)) +
    (if (c.ss p).entityID = firstBlood then ev.firstBlood else 0)

def income (winner base firstBlood : Nat) : List SessionId → Core → List (SessionId × Kit.Op)
  | [], _ => []
  | p :: ps, c => (p, .pay (c.award m winner base firstBlood p)) ::
      income winner base firstBlood ps (payRound m winner base firstBlood c p)

def endIncome : List (SessionId × Kit.Op) :=
  let localWon := decide (0 < c.teamAlive m localTeamID)
  let d := c.scoreRound m localWon
  let g := d.ms m
  income m (if localWon then localTeamID else enemyTeamID)
    (csRoundIncome g.round g.settings.baseCoins) g.firstBlood g.players d

def issues (resetCoins : Bool) : List (SessionId × Kit.Op) :=
  match (c.ss s).matchRef with
  | some m =>
    [(s, .issue (if resetCoins then some (csStartingCoins (c.ms m).settings.baseCoins) else none)
      (c.ms m).settings.noLoadout w.cfg.infiniteGloo)]
  | none => []

def edgeOps : List (SessionId × Kit.Op) :=
  match (c.ms m).phase with
  | .setupWait => c.issues w (c.ms m).s true
  | .postBanner =>
    ((c.ms m).players.map fun p => (p, .round)) ++
      if c.deadHumans m = [] then (c.ms m).players.map fun p => (p, .reissue) else []
  | .postReviveBind =>
    (c.ms m).players.flatMap fun p =>
      if p ∈ (c.ms m).revived then c.issues w p false else [(p, .reissue)]
  | _ => []

def phaseOps : List (SessionId × Kit.Op) :=
  if (c.ms m).phase = .fight then
    if c.teamAlive m localTeamID = 0 ∨ c.teamAlive m enemyTeamID = 0 then c.endIncome m else []
  else if (c.ms m).phase = .prepare ∧ (c.ms m).started = false ∧ c.teamsReady m then []
  else if c.due m then c.edgeOps w m
  else []

def tickOps : List (SessionId × Kit.Op) :=
  if (c.ms m).players = [] then [] else c.phaseOps w m

-- Every kit of `d` is the one of `c` after the player's operations.
def Deals (ops : List (SessionId × Kit.Op)) : Prop :=
  ∀ s, (d.ss s).kit = (c.ss s).kit.applyAll (c.setting w s) (opsOf s ops)

variable {w : World} {c d : Core} {s : SessionId} {m : MatchRef}

theorem deals_keeps {F : List Part} (h : Keeps F c d) (hF : Part.kit ∉ F) : Deals w c d [] :=
  fun s => kit_of_keeps h hF s

theorem setting_of_keeps {F : List Part} (h : Keeps F c d) (hi : Part.identity ∉ F)
    (hm : Part.moment ∉ F) (s : SessionId) : d.setting w s = c.setting w s := by
  have hid : Part.identity.sameSession (c.ss s) (d.ss s) := (h _ hi).2.1 s
  have hmo : Part.moment.sameShared c d := (h _ hm).2.2
  simp only [Part.sameSession, Part.sameShared, Prod.mk.injEq] at hid hmo
  unfold setting
  rw [hid.2.2.2.2.1, hmo.1, hmo.2.1]

theorem opsOf_append (o o' : List (SessionId × Kit.Op)) :
    opsOf s (o ++ o') = opsOf s o ++ opsOf s o' := by
  simp [opsOf]

theorem Deals.trans {e : Core} {o o' : List (SessionId × Kit.Op)} (h : Deals w c d o)
    (hset : ∀ s, d.setting w s = c.setting w s) (h' : Deals w d e o') : Deals w c e (o ++ o') := by
  intro s
  rw [h' s, h s, hset s, opsOf_append]
  exact List.foldl_append.symm

theorem Deals.keeps {e : Core} {o : List (SessionId × Kit.Op)} {F : List Part} (h : Deals w c d o)
    (hk : Keeps F d e) (hF : Part.kit ∉ F) : Deals w c e o :=
  fun s => (kit_of_keeps hk hF s).trans (h s)

theorem Deals.after {e : Core} {o : List (SessionId × Kit.Op)} {F : List Part} (h : Deals w d e o)
    (hk : Keeps F c d) (hF : Part.kit ∉ F) (hi : Part.identity ∉ F) (hm : Part.moment ∉ F) :
    Deals w c e o :=
  (deals_keeps hk hF).trans (setting_of_keeps hk hi hm) h

theorem deals_onKit {op : Kit.Op} {f : Kit → Kit}
    (hf : f (c.ss s).kit = (c.ss s).kit.apply (c.setting w s) op) :
    Deals w c (c.onKit s f) [(s, op)] := by
  intro s'
  rw [onKit_kit, opsOf]
  by_cases h : s' = s
  · subst h
    rw [if_pos rfl, hf]
    simp [Kit.applyAll]
  · have hne : s ≠ s' := fun heq => h heq.symm
    simp [h, hne, Kit.applyAll]

theorem deals_foldl {f : Core → SessionId → Core} {g : SessionId → List (SessionId × Kit.Op)}
    {F : List Part} (hi : Part.identity ∉ F) (hm : Part.moment ∉ F)
    (hF : ∀ d p, Keeps F d (f d p)) (hf : ∀ d p, Keeps F c d → Deals w d (f d p) (g p))
    (l : List SessionId) (hd : Keeps F c d) : Deals w d (l.foldl f d) (l.flatMap g) := by
  induction l generalizing d with
  | nil => exact deals_keeps (F := []) (Frame.refl d) (by decide)
  | cons p l ih =>
    rw [List.foldl_cons, List.flatMap_cons]
    exact (hf d p hd).trans (setting_of_keeps (hF d p) hi hm) (ih (hd.trans (hF d p)))

theorem deals_income {winner base firstBlood : Nat} (ps : List SessionId) :
    Deals w c (ps.foldl (payRound m winner base firstBlood) c)
      (income m winner base firstBlood ps c) := by
  induction ps generalizing c with
  | nil => exact deals_keeps (F := []) (Frame.refl c) (by decide)
  | cons p ps ih =>
    have hpay : Deals w c (payRound m winner base firstBlood c p)
        [(p, .pay (c.award m winner base firstBlood p))] := by
      have hkills : Keeps [.roundKills] c (c.onSession p fun q => { q with roundKills := 0 }) := by
        refine (Frame.refl c).onSession fun x => ?_
        cases x <;> first | exact Or.inr fun _ => rfl | exact Or.inl (by decide)
      have heq : payRound m winner base firstBlood c p =
          (c.onSession p fun q => { q with roundKills := 0 }).onKit p
            fun k => k.pay (c.award m winner base firstBlood p) := by
        unfold payRound
        refine congrArg (Core.onKit _ p) (funext fun k => Kit.pay_mod k ?_)
        have hdue := CsEvents.lossDue_mod (c.ms m).settings.events
          (ofTeam (c.ss p).team (c.ms m).lossStreak)
        unfold award
        split
        · rfl
        · dsimp only
          omega
      rw [heq]
      exact (deals_keeps hkills (by decide)).trans (setting_of_keeps hkills (by decide) (by decide))
        (@deals_onKit _ _ _ (.pay (c.award m winner base firstBlood p)) _ rfl)
    exact hpay.trans (setting_of_keeps keeps_payRound (by decide) (by decide)) ih

theorem deals_endFight : Deals w c (c.endFight w m) (c.endIncome m) := by
  unfold endFight endIncome
  dsimp only
  have hscored : Keeps [.zone, .fell, .result, .deeds] c
      (c.scoreRound m (decide (0 < c.teamAlive m localTeamID))) := by
    refine (Frame.refl c).onMatch fun x => ?_
    cases x <;> first | exact Or.inr fun _ => rfl | exact Or.inl (by decide)
  generalize (if decide (0 < c.teamAlive m localTeamID) = true then localTeamID else enemyTeamID) =
    winner
  generalize c.scoreRound m (decide (0 < c.teamAlive m localTeamID)) = d at hscored
  have hpaid : Deals w c (((d.ms m).players.foldl (payRound m winner
      (csRoundIncome (d.ms m).round (d.ms m).settings.baseCoins) (d.ms m).firstBlood) d).onMatch m
      fun g => { g with firstBlood := 0 }) (income m winner
      (csRoundIncome (d.ms m).round (d.ms m).settings.baseCoins) (d.ms m).firstBlood
      (d.ms m).players d) :=
    (deals_keeps hscored (by decide)).trans (setting_of_keeps hscored (by decide) (by decide))
      (deals_income _)
  intro s
  rw [← hpaid s]
  split
  · rfl
  · exact kit_of_keeps keeps_nextRound (by decide) s

theorem deals_giveLoadout {resetCoins : Bool} :
    Deals w c (c.giveLoadout w s resetCoins) (c.issues w s resetCoins) := by
  unfold giveLoadout issues withMatch
  cases hm : (c.ss s).matchRef with
  | none => exact deals_keeps (F := []) (Frame.refl c) (by decide)
  | some m =>
    dsimp only
    have hkit := @deals_onKit w (c.onMatch m fun g => { g with containers := ∅ }) s
      (.issue (if resetCoins then some (csStartingCoins (c.ms m).settings.baseCoins) else none)
        (c.ms m).settings.noLoadout w.cfg.infiniteGloo)
      (fun _ => (Kit.baseLoadout w (c.ss s).player.cosmetics.slots { (c.ss s).kit with
        coins := if resetCoins then csStartingCoins (c.ms m).settings.baseCoins
          else (c.ss s).kit.coins } (c.ms m).settings.noLoadout w.cfg.infiniteGloo).1)
      (by cases resetCoins <;> rfl)
    intro s'
    rw [kit_of_keeps keeps_broadcastEquipDiff (by decide), broadcastData_ss,
      kit_of_keeps (Frame.foldl (fun _ _ => (Frame.refl (F := []) _).broadcastData) _ _) (by decide)]
    refine Eq.trans ?_ (hkit s')
    split <;> rfl

theorem deals_reissueLoadout : Deals w c (c.reissueLoadout w s) [(s, .reissue)] := by
  unfold reissueLoadout
  exact deals_onKit (f := fun _ => (Kit.reissued w c.order (c.ss s).player.cosmetics.slots
    (c.ss s).kit).1) rfl

theorem issues_of_keeps {F : List Part} (h : Keeps F c d) (hs : Part.seat ∉ F)
    (ht : Part.settings ∉ F) {resetCoins : Bool} : d.issues w s resetCoins = c.issues w s resetCoins := by
  unfold issues
  rw [matchRef_of_keeps h hs]
  cases (c.ss s).matchRef with
  | none => rfl
  | some m =>
    dsimp only
    rw [settings_of_keeps h ht]

theorem deals_roundReset {dead : List SessionId} :
    Deals w c (c.roundReset w m dead) ((c.ms m).players.map fun p => (p, .round)) := by
  unfold roundReset
  dsimp only
  have hround : Deals w (c.reviveAll m)
      (((c.reviveAll m).ms m).players.foldl resetPlayer (c.reviveAll m))
      ((c.ms m).players.map fun p => (p, .round)) := by
    rw [players_of_keeps keeps_reviveAll (by decide), List.map_eq_flatMap]
    refine deals_foldl (F := [.body, .kit]) (c := c.reviveAll m) (by decide) (by decide)
      (fun _ _ => keeps_resetPlayer) (fun d p _ => ?_) _ (Frame.refl _)
    have hpos : Keeps [.body] d (d.onSession p fun q => { q with playerPos := q.player.spawnPos }) := by
      refine (Frame.refl d).onSession fun x => ?_
      cases x <;> first | exact Or.inr fun _ => rfl | exact Or.inl (by decide)
    exact Deals.after (@deals_onKit _ _ _ (.round) Kit.resetEP rfl) hpos (by decide) (by decide)
      (by decide)
  refine (hround.after keeps_reviveAll (by decide) (by decide) (by decide)).keeps
    (F := [.walls, .flags, .body, .phase]) ?_ (by decide)
  refine Frame.onMatch (Frame.trans (Frame.trans (Frame.trans (keeps_clearWalls.mono (by decide))
    (keeps_clearAllFlags.mono (by decide))) (keeps_respawnBot.mono (by decide)))
    (Frame.foldl (fun _ _ => keeps_respawnPlayer.mono (by decide)) _ _)) fun x => ?_
  cases x <;> first | exact Or.inr fun _ => rfl | exact Or.inl (by decide)

theorem deals_postBannerEdge : Deals w c (c.postBannerEdge w m)
    (((c.ms m).players.map fun p => (p, .round)) ++
      if c.deadHumans m = [] then (c.ms m).players.map fun p => (p, .reissue) else []) := by
  unfold postBannerEdge
  dsimp only
  have hreset := @deals_roundReset w c m (c.deadHumans m)
  have hkeeps : Keeps bannerParts c (c.roundReset w m (c.deadHumans m)) := keeps_roundReset
  by_cases hdead : c.deadHumans m = []
  · rw [if_neg (not_not.mpr hdead), if_pos hdead]
    refine Deals.keeps (F := [.phase]) ?_ (keeps_enter.trans keeps_sendPull) (by decide)
    refine hreset.trans (setting_of_keeps hkeeps (by decide) (by decide)) ?_
    rw [players_of_keeps hkeeps (by decide), List.map_eq_flatMap]
    exact deals_foldl (F := [.kit]) (c := c.roundReset w m (c.deadHumans m)) (by decide) (by decide)
      (fun d p => keeps_reissueLoadout (s := p)) (fun d p _ => deals_reissueLoadout (s := p)) _
      (Frame.refl _)
  · rw [if_pos hdead, if_neg hdead, List.append_nil]
    refine hreset.keeps (F := [.phase]) (Frame.trans ?_ keeps_enter) (by decide)
    refine (Frame.refl _).onMatch fun x => ?_
    cases x <;> first | exact Or.inr fun _ => rfl | exact Or.inl (by decide)

theorem deals_postReviveEdge : Deals w c (c.postReviveEdge w m)
    ((c.ms m).players.flatMap fun p =>
      if p ∈ (c.ms m).revived then c.issues w p false else [(p, .reissue)]) := by
  unfold postReviveEdge
  dsimp only
  have hdealt : Deals w (c.bindAll m)
      ((c.ms m).players.foldl (fun d p =>
        if p ∈ (c.ms m).revived then d.giveLoadout w p false else d.reissueLoadout w p) (c.bindAll m))
      ((c.ms m).players.flatMap fun p =>
        if p ∈ (c.ms m).revived then c.issues w p false else [(p, .reissue)]) := by
    refine deals_foldl (F := [.kit, .ground]) (c := c.bindAll m) (by decide) (by decide)
      (fun d p => ?_) (fun d p hd => ?_) _ (Frame.refl _)
    · exact Frame.ite (fun _ => keeps_giveLoadout) fun _ => keeps_reissueLoadout.mono (by decide)
    · split
      · have hall := keeps_bindAll.mono (G := [.kit, .ground]) (by decide) |>.trans hd
        rw [← issues_of_keeps hall (by decide) (by decide)]
        exact deals_giveLoadout
      · exact deals_reissueLoadout
  refine Deals.keeps (F := [.phase]) (hdealt.after keeps_bindAll (by decide) (by decide) (by decide))
    (Frame.trans (Frame.trans ?_ keeps_enter) keeps_sendPull) (by decide)
  refine (Frame.refl _).onMatch fun x => ?_
  cases x <;> first | exact Or.inr fun _ => rfl | exact Or.inl (by decide)

theorem deals_edge : Deals w c (c.phaseEdge w m) (c.edgeOps w m) := by
  unfold phaseEdge edgeOps
  dsimp only
  cases hphase : (c.ms m).phase with
  | setupWait =>
    dsimp only
    have hshop : Keeps [] c (c.sendCSShop (c.ms m).s) := keeps_sendCSShop
    rw [← issues_of_keeps hshop (by decide) (by decide)]
    exact (deals_giveLoadout.after hshop (by decide) (by decide) (by decide)).keeps
      keeps_enterPrepare (by decide)
  | postBanner => exact deals_postBannerEdge
  | postReviveBind => exact deals_postReviveEdge
  | setupBind =>
    exact deals_keeps (F := [.phase]) ((keeps_bindAll.mono (by decide)).trans keeps_enter) (by decide)
  | setupGap => exact deals_keeps keeps_enter (by decide)
  | cancelled => exact deals_keeps ((Frame.refl c).broadcastData.trans keeps_tearDown) (by decide)
  | prepare =>
    refine deals_keeps (F := [.phase, .zone, .deeds, .bot, .hp, .life, .lock]) ?_ (by decide)
    refine Frame.ite (fun _ => keeps_startFight.mono (by decide)) fun _ => Frame.ite (fun _ => ?_)
      fun _ => keeps_enterCancel.mono (by decide)
    exact (keeps_spawnFallbackBot.mono (by decide)).trans (keeps_startBuyPhase.mono (by decide))
  | fight => exact deals_keeps (F := []) (Frame.refl c) (by decide)
  | matchEndPause =>
    refine deals_keeps (F := [.published, .lock, .phase]) (Frame.trans (Frame.onMatch
      (keeps_matchEnd.mono (by decide)) fun x => ?_) (keeps_enter.mono (by decide))) (by decide)
    cases x <;> first | exact Or.inr fun _ => rfl | exact Or.inl (by decide)
  | postBlack =>
    exact deals_keeps (F := [.result, .deeds, .phase])
      ((keeps_openRound.mono (by decide)).broadcastData.trans (keeps_enter.mono (by decide)))
      (by decide)
  | introWait => exact deals_keeps (keeps_enter.trans keeps_sendPull) (by decide)
  | intro => exact deals_keeps keeps_enterPrepare (by decide)
  | matchEnd => exact deals_keeps keeps_tearDown (by decide)

theorem deals_advancePhase : Deals w c (c.advancePhase w m) (c.phaseOps w m) := by
  unfold advancePhase phaseOps
  split
  · split
    · exact deals_endFight
    · exact deals_keeps (F := []) (Frame.refl c) (by decide)
  · split
    · exact deals_keeps keeps_startBuyPhase (by decide)
    · split
      · exact deals_edge
      · exact deals_keeps (F := []) (Frame.refl c) (by decide)

theorem kit_stepZone (s : SessionId) : ((c.stepZone w m).ss s).kit = (c.ss s).kit := by
  have hhit : ∀ (l : List SessionId) (zone : Match) (d : Core), ((l.foldl (fun c p =>
      if (c.ms m).lifeOf (c.ss p).entityID = .alive ∧ w.outOfZone zone c.now (c.ss p).playerPos then
        c.applyDamage w m (c.ss p).entityID 0 w.zoneDamage 0
      else c) d).ss s).kit = (d.ss s).kit := by
    intro l zone
    induction l with
    | nil => intro d; rfl
    | cons p l ih =>
      intro d
      rw [List.foldl_cons, ih]
      split
      · rw [kit_applyDamage]
        split <;> rfl
      · rfl
  unfold stepZone
  split
  · dsimp only
    split
    · rfl
    · rw [hhit]
      rfl
  · rfl

theorem rested_onKit {p s : SessionId} {f : Kit → Kit} (hf : ∀ k, (f k).rested = k.rested) :
    ((c.onKit p f).ss s).kit.rested = (c.ss s).kit.rested := by
  rw [onKit_kit]
  split
  · rename_i hs
    rw [hf, hs]
  · rfl

theorem rested_ite {P : Prop} [Decidable P] {d e : Core} {k : Kit} {s : SessionId}
    (hd : ((d.ss s).kit).rested = k) (he : ((e.ss s).kit).rested = k) :
    (((if P then d else e).ss s).kit).rested = k := by
  split
  · exact hd
  · exact he

theorem rested_regen {p s : SessionId} {e hp maxHP : Nat} :
    ((c.regen p m e hp maxHP).ss s).kit.rested = (c.ss s).kit.rested := by
  unfold regen
  dsimp only
  refine rested_ite rfl (rested_ite (rested_onKit fun _ => rfl) (Eq.trans (rested_onKit ?_) ?_))
  · intro k
    rfl
  · rw [onMatch_ss]
    exact rested_onKit fun _ => rfl

theorem rested_stepEP {p s : SessionId} : ((c.stepEP p).ss s).kit.rested = (c.ss s).kit.rested := by
  unfold stepEP withMatch
  split
  · rfl
  · split
    · dsimp only
      split
      · exact rested_onKit fun _ => rfl
      · exact rested_regen
    · rfl

theorem rested_stepPlayers (l : List SessionId) (s : SessionId) :
    ((l.foldl stepPlayer c).ss s).kit.rested = (c.ss s).kit.rested := by
  induction l generalizing c with
  | nil => rfl
  | cons p l ih =>
    rw [List.foldl_cons, ih]
    unfold stepPlayer
    rw [kit_of_keeps keeps_stepHealChannel (by decide), rested_stepEP,
      kit_of_keeps keeps_stepHeal (by decide)]

theorem rested_tick (s : SessionId) : ((c.tick w m).ss s).kit.rested =
    ((c.ss s).kit.applyAll (c.setting w s) (opsOf s (c.tickOps w m))).rested := by
  unfold tick tickOps
  split
  · rw [kit_of_keeps keeps_stopLoop (by decide)]
    rfl
  · dsimp only
    rw [rested_stepPlayers, kit_of_keeps keeps_stepFlags (by decide),
      kit_of_keeps keeps_stepRescue (by decide), kit_of_keeps keeps_stepKnock (by decide),
      kit_of_keeps keeps_sweepDisconnects (by decide), kit_stepZone,
      kit_of_keeps keeps_streamSweep (by decide), deals_advancePhase]

theorem deals_runStart : Deals w c (c.runStart w m) [((c.ms m).s,
    .fund (if w.cfg.unlimitedMoneyTest then 9999 else csStartingCoins (c.ms m).settings.baseCoins))] := by
  unfold runStart
  dsimp only
  generalize (if w.cfg.unlimitedMoneyTest then 9999 else csStartingCoins (c.ms m).settings.baseCoins) =
    coins
  refine Deals.keeps (F := .run :: .zone :: .phase :: initParts) (@deals_onKit _ _ _
    (.fund coins) (fun k => { k with coins := coins }) rfl) ?_ (by decide)
  refine Frame.trans (Frame.trans ?_ (keeps_initHP.mono (by decide))) (keeps_enter.mono (by decide))
  refine (Frame.refl _).onMatch fun x => ?_
  cases x <;> first | exact Or.inr fun _ => rfl | exact Or.inl (by decide)

theorem deals_route {p : Packet} : Deals w c (c.route w s p) (c.asks w s p).toList := by
  intro s'
  rw [kit_route]
  unfold served
  cases c.asks w s p with
  | none => rfl
  | some y =>
    obtain ⟨v, op⟩ := y
    dsimp only
    by_cases h : s' = v
    · subst h
      simp [opsOf, Kit.applyAll]
    · have hne : v ≠ s' := fun heq => h heq.symm
      simp [opsOf, Kit.applyAll, h, hne]

end Core

namespace Core

variable {w : World} {c : Core} {s : SessionId} {m : MatchRef}

theorem deals_admitLater : Deals w c (c.admitLater w s m) (c.issues w s true) := by
  cases hm : (c.ss s).matchRef with
  | none =>
    unfold admitLater withMatch issues
    rw [hm]
    exact deals_keeps (F := []) (Frame.refl c) (by decide)
  | some m' =>
    obtain ⟨d, hd, heq⟩ := admitLater_eq (w := w) (s := s) (m := m) (by rw [hm]; simp)
    have hadd := keeps_addPlayer (c := c) (s := s) (m := m)
    have hissue : d.issues w s true = c.issues w s true := by
      rw [issues_of_keeps hd (by decide) (by decide)]
      unfold issues
      rw [show ((c.addPlayer s m).ss s).matchRef = (c.ss s).matchRef by simp [addPlayer], hm]
      dsimp only
      rw [settings_of_keeps hadd (by decide)]
    rw [heq, ← hissue]
    refine Deals.keeps ?_ keeps_sendCSShop (by decide)
    exact deals_giveLoadout.after ((hadd.mono (by decide)).trans (hd.mono (by decide)))
      (F := [.seat, .slots, .roster, .body, .hp, .life, .bot, .score, .deeds]) (by decide) (by decide)
      (by decide)

end Core

namespace Server

variable (w : World) (v : Server) (e : Event) (s : SessionId)

def settingAt : Kit.Setting := (v.core.atMoment e.moment none).setting w s

def dealt : List (SessionId × Kit.Op) :=
  match e.act with
  | .dispatch s p =>
    if (v.core.ss s).syncStarted ∨ cmdOf p.cmd = .ack ∨ cmdOf p.cmd = .ping then []
    else ((((v.core.atMoment e.moment none).touch s).ackIfReliable s p).asks w s p).toList
  | .start m => [((v.core.ms m).s,
    .fund (if w.cfg.unlimitedMoneyTest then 9999 else csStartingCoins (v.core.ms m).settings.baseCoins))]
  | .exec m =>
    match v.mail m with
    | .route s p :: _ => ((v.core.atMoment e.moment (some m)).asks w s p).toList
    | .admitLater s :: _ => (v.core.atMoment e.moment (some m)).issues w s true
    | _ => []
  | .tick m => (v.core.atMoment e.moment (some m)).tickOps w m
  | _ => []

def movesOf : List (Kit.Setting × Kit.Op) :=
  (opsOf s (v.dealt w e)).map fun op => (v.settingAt w e s, op)

-- Every operation of a run on one player's kit, with the kit that it met.
def trail (es : List Event) : List (Kit × Kit.Setting × Kit.Op) :=
  logged (step w) (fun v e => inRow Kit.act (v.movesOf w e s) (v.core.ss s).kit) v es

variable {w : World} {v v' : Server} {e : Event} {s : SessionId}

theorem foldl_movesOf (k : Kit) : (v.movesOf w e s).foldl (fun k a => Kit.act a k) k =
    k.applyAll (v.settingAt w e s) (opsOf s (v.dealt w e)) := by
  unfold movesOf Kit.applyAll
  rw [List.foldl_map]
  rfl

theorem rested_step (h : v.Step w e v') : ((v'.core.ss s).kit).rested =
    ((v.core.ss s).kit.applyAll (v.settingAt w e s) (opsOf s (v.dealt w e))).rested := by
  have hat : ∀ loop, Keeps [.posts, .moment] v.core (v.core.atMoment e.moment loop) :=
    fun loop => Core.keeps_atMoment
  have hdeal : ∀ {loop : Option MatchRef} {d : Core} {ops : List (SessionId × Kit.Op)},
      Core.Deals w (v.core.atMoment e.moment loop) d ops → v.dealt w e = ops →
      ((d.ss s).kit).rested =
        ((v.core.ss s).kit.applyAll (v.settingAt w e s) (opsOf s (v.dealt w e))).rested := by
    intro loop d ops hd ho
    rw [hd s, ho, kit_of_keeps (hat loop) (by decide)]
    rfl
  have hf := fires_of_step h
  obtain ⟨act, t⟩ := e
  dsimp only at hf
  cases hf with
  | @dispatch s' p hj =>
    by_cases hq : (v.core.ss s').syncStarted ∨ cmdOf p.cmd = .ack ∨ cmdOf p.cmd = .ping
    · exact hdeal (Core.deals_keeps (Core.dispatch_quiet hq) (by decide)) (if_pos hq)
    · refine @hdeal none _ _ ?_ (if_neg hq)
      rw [not_or, not_or] at hq
      have hroute : (v.core.atMoment t none).dispatch w s' p =
          (((v.core.atMoment t none).touch s').ackIfReliable s' p).route w s' p :=
        Core.dispatch_routes hq.1 hq.2.1 hq.2.2
      change Core.Deals w (v.core.atMoment t none) ((v.core.atMoment t none).dispatch w s' p) _
      rw [hroute]
      exact Core.deals_route.after (F := [.net])
        (Core.keeps_touch.trans (Core.keeps_ackIfReliable.mono (by decide))) (by decide) (by decide)
        (by decide)
  | @letIn a ha =>
    refine @hdeal a.loop _ _ (Core.deals_keeps (F := [.registry, .seat, .run, .slots, .roster,
      .body, .bot, .phase, .result, .settings, .posts]) ?_ (by decide)) rfl
    exact (Core.keeps_registry.mono (by decide)).trans (Core.keeps_admitSession.mono (by decide))
  | @start m hl => exact hdeal Core.deals_runStart rfl
  | @exec m job rest hm hfree =>
    cases job with
    | route s' p => exact hdeal Core.deals_route (by simp [dealt, hm])
    | admitLater s' => exact hdeal Core.deals_admitLater (by simp [dealt, hm])
    | resyncWalls s' =>
      exact hdeal (Core.deals_keeps Core.keeps_resyncWalls (by decide)) (by simp [dealt, hm])
  | @tick m hfree =>
    refine (Core.rested_tick s).trans ?_
    rw [kit_of_keeps (hat (some m)) (by decide)]
    rfl
  | @stop m hfree hdone => exact hdeal (Core.deals_keeps Core.keeps_stopLoop (by decide)) rfl

theorem follows_run {es : List Event} (h : Run (Step w) start es v) :
    Lib.Follows Kit.act Kit.rested noKit (start.trail w s es) (v.core.ss s).kit := by
  induction h with
  | start => exact .start rfl
  | next hr hs ih =>
    unfold trail at ih ⊢
    rw [logged_snoc hr]
    exact ih.inRow _ ((rested_step hs).trans (congrArg Kit.rested (foldl_movesOf _).symm))

theorem trail_inv {I : Kit → Prop} {Ok : Kit → Kit.Setting × Kit.Op → Prop} {es : List Event}
    (hdrift : ∀ k k', k'.rested = k.rested → I k → I k') (h0 : I noKit)
    (hact : ∀ k a, I k → Ok k a → I (Kit.act a k)) (h : Run (Step w) start es v)
    (hok : ∀ y ∈ start.trail w s es, Ok y.1 y.2) : I (v.core.ss s).kit :=
  (follows_run h).inv (I := fun _ k => I k) (P := fun _ y => Ok y.1 y.2) (fun _ => hdrift) h0
    (fun _ k a hk ha => hact k a hk ha) (each_of_forall hok)

end Server

namespace Core

variable {w : World} {c : Core} {s v : SessionId} {m : MatchRef} {p : Packet} {op : Kit.Op}

theorem asks_sound (h : c.asks w s p = some (v, op)) : (c.ss v).kit.Sound (c.setting w v) op := by
  unfold asks at h
  cases hc : cmdOf p.cmd with
  | csPurchase =>
    rw [hc] at h
    obtain ⟨x, hx, heq⟩ := Option.map_eq_some_iff.mp h
    obtain ⟨rfl, rfl⟩ := Prod.mk.inj heq
    rcases handleCSPurchase_cases (w := w) (c := c) (s := s) (p := p) with
      ⟨hacc, -⟩ | ⟨m, item, qty, hacc, -, hitem, hq, hm, hpay, -⟩
    · rw [hacc] at hx
      cases hx
    · rw [hacc] at hx
      cases hx
      exact ⟨hq, hm, hpay, _, _, hitem⟩
  | addIcewall =>
    rw [hc] at h
    obtain ⟨req, -, h⟩ := Option.bind_eq_some_iff.mp h
    obtain ⟨m, -, h⟩ := Option.bind_eq_some_iff.mp h
    rw [Option.ite_none_left_eq_some, Option.some.injEq, Prod.mk.injEq] at h
    obtain ⟨hno, rfl, rfl⟩ := h
    exact fun hz => hno (Or.inl hz)
  | pickupInventory =>
    rw [hc] at h
    obtain ⟨u, -, h⟩ := Option.bind_eq_some_iff.mp h
    obtain ⟨m, -, h⟩ := Option.bind_eq_some_iff.mp h
    obtain ⟨loot, -, h⟩ := Option.map_eq_some_iff.mp h
    split at h
    · rename_i hclass
      cases h
      exact hclass
    · rename_i hclass
      cases h
      exact hclass
  | dropInventory =>
    rw [hc] at h
    obtain ⟨u, -, h⟩ := Option.bind_eq_some_iff.mp h
    rw [Option.ite_none_left_eq_some, Option.some.injEq, Prod.mk.injEq] at h
    obtain ⟨hno, rfl, rfl⟩ := h
    exact ⟨fun hz => hno (Or.inl hz), fun hn => hno (Or.inr hn)⟩
  | takeDamage =>
    rw [hc] at h
    obtain ⟨req, -, h⟩ := Option.bind_eq_some_iff.mp h
    obtain ⟨m, -, h⟩ := Option.bind_eq_some_iff.mp h
    obtain ⟨x, -, heq⟩ := Option.map_eq_some_iff.mp h
    cases heq
    trivial
  | changeHeldItem =>
    rw [hc] at h
    dsimp only at h
    rw [Option.ite_none_left_eq_some, Option.some.injEq, Prod.mk.injEq] at h
    obtain ⟨-, rfl, rfl⟩ := h
    trivial
  | equip =>
    rw [hc] at h
    obtain ⟨x, -, heq⟩ := Option.map_eq_some_iff.mp h
    cases heq
    trivial
  | useInventory =>
    rw [hc] at h
    obtain ⟨x, -, heq⟩ := Option.map_eq_some_iff.mp h
    cases heq
    trivial
  | _ =>
    rw [hc] at h
    cases h

theorem issues_sound {reset : Bool} {o : SessionId × Kit.Op} (h : o ∈ c.issues w s reset)
    (x : Kit.Setting) (k : Kit) : k.Sound x o.2 := by
  unfold issues at h
  split at h
  · rw [List.mem_singleton.mp h]
    trivial
  · cases h

theorem income_sound {winner base first : Nat} {ps : List SessionId} {o : SessionId × Kit.Op}
    (h : o ∈ income m winner base first ps c) (x : Kit.Setting) (k : Kit) : k.Sound x o.2 := by
  induction ps generalizing c with
  | nil => cases h
  | cons q ps ih =>
    rcases List.mem_cons.mp h with rfl | h
    · trivial
    · exact ih h

theorem edgeOps_sound {o : SessionId × Kit.Op} (h : o ∈ c.edgeOps w m) (x : Kit.Setting) (k : Kit) :
    k.Sound x o.2 := by
  have hmap : ∀ {op : Kit.Op}, k.Sound x op → o ∈ (c.ms m).players.map (fun p => (p, op)) →
      k.Sound x o.2 := by
    intro op hop ho
    obtain ⟨q, -, rfl⟩ := List.mem_map.mp ho
    exact hop
  unfold edgeOps at h
  split at h
  · exact issues_sound h x k
  · rcases List.mem_append.mp h with h | h
    · exact @hmap .round trivial h
    · split at h
      · exact @hmap .reissue trivial h
      · cases h
  · obtain ⟨q, -, h⟩ := List.mem_flatMap.mp h
    split at h
    · exact issues_sound h x k
    · rw [List.mem_singleton.mp h]
      trivial
  · cases h

theorem tickOps_sound {o : SessionId × Kit.Op} (h : o ∈ c.tickOps w m) (x : Kit.Setting) (k : Kit) :
    k.Sound x o.2 := by
  unfold tickOps phaseOps at h
  split at h
  · cases h
  · split at h
    · split at h
      · exact income_sound h x k
      · cases h
    · split at h
      · cases h
      · split at h
        · exact edgeOps_sound h x k
        · cases h

end Core

namespace Server

variable {w : World} {v v' : Server} {e : Event} {s : SessionId}

theorem dealt_sound : (∀ o ∈ v.dealt w e, ∀ x k, Kit.Sound x k o.2) ∨
    ∃ s op, v.dealt w e = [(s, op)] ∧ (v.core.ss s).kit.Sound (v.settingAt w e s) op := by
  have hasked : ∀ {c : Core} {p : Packet} {q : SessionId}, (∀ s, (c.ss s).kit = (v.core.ss s).kit) →
      (∀ s, c.setting w s = v.settingAt w e s) → v.dealt w e = (c.asks w q p).toList →
      (∀ o ∈ v.dealt w e, ∀ x k, Kit.Sound x k o.2) ∨
        ∃ s op, v.dealt w e = [(s, op)] ∧ (v.core.ss s).kit.Sound (v.settingAt w e s) op := by
    intro c p q hkit hset hd
    cases hasks : c.asks w q p with
    | none =>
      rw [hd, hasks]
      exact Or.inl fun o ho => absurd ho List.not_mem_nil
    | some y =>
      refine Or.inr ⟨y.1, y.2, by rw [hd, hasks]; rfl, ?_⟩
      rw [← hkit, ← hset]
      exact Core.asks_sound hasks
  obtain ⟨act, t⟩ := e
  cases act with
  | dispatch q p =>
    by_cases hq : (v.core.ss q).syncStarted ∨ cmdOf p.cmd = .ack ∨ cmdOf p.cmd = .ping
    · refine Or.inl ?_
      rw [show v.dealt w ⟨.dispatch q p, t⟩ = [] from if_pos hq]
      exact fun o ho => absurd ho List.not_mem_nil
    · have hkeeps : Keeps [.net] (v.core.atMoment t none)
          (((v.core.atMoment t none).touch q).ackIfReliable q p) :=
        Core.keeps_touch.trans (Core.keeps_ackIfReliable.mono (by decide))
      refine hasked (fun s => ?_) (fun s => ?_) (if_neg hq)
      · exact kit_of_keeps hkeeps (by decide) s
      · exact Core.setting_of_keeps hkeeps (by decide) (by decide) s
  | start m =>
    refine Or.inl fun o ho x k => ?_
    rw [List.mem_singleton.mp ho]
    trivial
  | exec m =>
    cases hm : v.mail m with
    | nil => exact Or.inl fun o ho => by simp [dealt, hm] at ho
    | cons job rest =>
      cases job with
      | route q p =>
        exact hasked (c := v.core.atMoment t (some m)) (p := p) (q := q) (fun _ => rfl)
          (fun _ => rfl) (by simp [dealt, hm])
      | admitLater q =>
        refine Or.inl fun o ho x k => ?_
        simp only [dealt, hm] at ho
        exact Core.issues_sound ho x k
      | resyncWalls q => exact Or.inl fun o ho => by simp [dealt, hm] at ho
  | tick m => exact Or.inl fun o ho x k => Core.tickOps_sound ho x k
  | letIn a => exact Or.inl fun o ho => absurd ho List.not_mem_nil
  | stop m => exact Or.inl fun o ho => absurd ho List.not_mem_nil

theorem trail_sound {es : List Event} {y : Kit × Kit.Setting × Kit.Op} (h : y ∈ v.trail w s es) :
    y.1.Sound y.2.1 y.2.2 ∧ y.2.1.w = w := by
  obtain ⟨u, e, hy⟩ := mem_logged h
  obtain ⟨op, hop, heq⟩ := List.mem_map.mp (mem_inRow hy)
  refine ⟨?_, by rw [← heq]; rfl⟩
  rcases dealt_sound (w := w) (v := u) (e := e) with hfree | ⟨q, op', hd, hs⟩
  · obtain ⟨o, ho, rfl⟩ := List.mem_map.mp hop
    rw [← heq]
    exact hfree o (List.mem_filter.mp ho).1 _ _
  · unfold movesOf opsOf at hy
    rw [hd] at hy
    by_cases hq : q = s
    · subst hq
      simp only [decide_true, List.filter_cons_of_pos, List.filter_nil, List.map_cons,
        List.map_nil, inRow, List.mem_singleton] at hy
      rw [hy]
      exact hs
    · simp [hq, inRow] at hy

def dealtTo (w : World) (v : Server) (es : List Event) : List SessionId :=
  logged (step w) (fun v e => (v.dealt w e).map fun o => o.1) v es

theorem trail_eq_nil {es : List Event} (h : s ∉ v.dealtTo w es) : v.trail w s es = [] := by
  unfold dealtTo at h
  unfold trail
  induction es generalizing v with
  | nil => rfl
  | cons e es ih =>
    rw [logged, List.mem_append, not_or] at h
    have hops : opsOf s (v.dealt w e) = [] := by
      unfold opsOf
      rw [List.map_eq_nil_iff, List.filter_eq_nil_iff]
      intro o ho hs
      exact h.1 (List.mem_map.mpr ⟨o, ho, of_decide_eq_true hs⟩)
    rw [logged, movesOf, hops]
    cases hstep : v.step w e with
    | none => rfl
    | some v' =>
      rw [hstep] at h
      exact ih h.2

theorem forall_trail {es : List Event} {P : Kit × Kit.Setting × Kit.Op → Prop}
    (h : ∀ s ∈ v.dealtTo w es, ∀ y ∈ v.trail w s es, P y) (s : SessionId) :
    ∀ y ∈ v.trail w s es, P y := by
  by_cases hs : s ∈ v.dealtTo w es
  · exact h s hs
  · rw [trail_eq_nil hs]
    exact fun y hy => absurd hy List.not_mem_nil

end Server

end MatchServer
