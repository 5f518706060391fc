import Madoka.Lib.Queue
import Madoka.MatchServer.Stacks
import Madoka.MatchServer.Walls

namespace MatchServer

open Lib

section Tags

variable {walls walls' : List IceWall} {o : Nat}

def ownIds (o : Nat) (tags : List (Nat × Nat)) : List Nat :=
  (tags.filter fun t => t.1 == o).map Prod.snd

theorem ids_ownedBy : (ownedBy o walls).map IceWall.id = ownIds o (walls.map IceWall.tag) := by
  rw [ownIds, ownedBy, List.filter_map, List.map_map]
  rfl

theorem ids_left (hd : (walls.map IceWall.id).Nodup) (h : Left walls walls') :
    (ownedBy o walls').map IceWall.id = ((ownedBy o walls).map IceWall.id).filter
      fun i => decide (i ∉ (walls.map IceWall.id).filter
        fun i => decide (i ∉ walls'.map IceWall.id)) := by
  rw [← Match.ids_of_tags] at hd
  have hsub : ((walls'.map IceWall.tag).map Prod.snd).Sublist ((walls.map IceWall.tag).map Prod.snd) :=
    h.tags.map _
  have hown : (ownIds o (walls'.map IceWall.tag)).Sublist (ownIds o (walls.map IceWall.tag)) :=
    (h.tags.filter _).map _
  have hnodup : (ownIds o (walls.map IceWall.tag)).Nodup :=
    (List.filter_sublist.map Prod.snd).nodup hd
  rw [ids_ownedBy, ids_ownedBy, ← filter_of_sublist hown hnodup]
  refine List.filter_congr fun i hi => decide_eq_decide.mpr ?_
  rw [← Match.ids_of_tags walls, ← Match.ids_of_tags walls']
  obtain ⟨t, ht, rfl⟩ := List.mem_map.mp hi
  rw [List.mem_filter] at ht
  simp only [List.mem_filter, decide_eq_true_eq, not_and, not_not]
  constructor
  · intro hin _
    exact List.mem_map.mpr ((List.mem_map.mp hin).imp fun t' ht' =>
      ⟨(List.mem_filter.mp ht'.1).1, ht'.2⟩)
  · intro hin
    obtain ⟨t', ht', hid⟩ := List.mem_map.mp (hin (List.mem_map_of_mem ht.1))
    have heq : t' = t := List.inj_on_of_nodup_map hd (h.tags.subset ht') ht.1 hid
    rw [heq] at ht'
    exact List.mem_map_of_mem (List.mem_filter.mpr ⟨ht', ht.2⟩)

end Tags

-- The walls of a match after a history of placements and of losses.
structure Walled (walls : List IceWall) (seq : Nat) (raised : List IceWall)
    (marks : List (Mark Nat Nat)) : Prop where
  seq : seq = raised.length
  ids : raised.map IceWall.id = (List.range raised.length).map fun k => wallEntityBase + (k + 1)
  known : ∀ i ∈ walls.map IceWall.id, i ∈ raised.map IceWall.id
  distinct : (walls.map IceWall.id).Nodup
  recent : ∀ o, (ownedBy o walls).map IceWall.id = queue glooWallCap o marks
  sound : ∀ x ∈ walls, x.Sound

namespace Walled

variable {g : Match} {walls : List IceWall} {seq o : Nat} {raised : List IceWall}
  {marks : List (Mark Nat Nat)} {req : PlaceIcewallReq} {now : Int}

theorem start : Walled [] 0 [] [] :=
  ⟨rfl, rfl, fun _ h => h, List.nodup_nil, fun _ => rfl, fun _ h => absurd h List.not_mem_nil⟩

theorem fresh (h : Walled walls seq raised marks) : (raised.map IceWall.id).Nodup := by
  rw [h.ids]
  exact List.nodup_range.map fun i j hij => by simpa using hij

theorem nextWall_id (h : Walled g.walls g.wallSeq raised marks) (hlt : raised.length + 1 < 2 ^ 24) :
    (g.nextWall o req now).id = wallEntityBase + (raised.length + 1) := by
  change wallEntityBase ||| ((g.wallSeq + 1) % 2 ^ 32) = _
  rw [h.seq, Nat.mod_eq_of_lt (by omega)]
  exact (Nat.two_pow_add_eq_or_of_lt hlt 3).symm

theorem ids_snoc (h : Walled g.walls g.wallSeq raised marks) (hlt : raised.length + 1 < 2 ^ 24) :
    (raised ++ [g.nextWall o req now]).map IceWall.id = (List.range (raised.length + 1)).map
      fun k => wallEntityBase + (k + 1) := by
  rw [List.map_append, h.ids, List.range_succ, List.map_append, List.map_singleton,
    List.map_singleton, h.nextWall_id hlt]

theorem apart (h : Walled g.walls g.wallSeq raised marks) (hlt : raised.length + 1 < 2 ^ 24) :
    ((g.walls ++ [g.nextWall o req now]).map IceWall.id).Nodup := by
  rw [List.map_append, List.nodup_append]
  refine ⟨h.distinct, List.nodup_singleton _, fun i hi j hj hij => ?_⟩
  rw [List.mem_singleton.mp hj, h.nextWall_id hlt] at hij
  have hknown := h.known i hi
  rw [h.ids] at hknown
  obtain ⟨k, hk, rfl⟩ := List.mem_map.mp hknown
  rw [List.mem_range] at hk
  omega

theorem raise (h : Walled g.walls g.wallSeq raised marks) (hlt : raised.length + 1 < 2 ^ 24) :
    Walled (g.raise (g.nextWall o req now)).walls ((g.wallSeq + 1) % 2 ^ 32)
      (raised ++ [g.nextWall o req now])
      (marks ++ [.put o (g.nextWall o req now).id]) := by
  generalize hwall : g.nextWall o req now = wall
  have howner : wall.owner = o := by rw [← hwall]; rfl
  have hsub : (g.raise wall).walls.Sublist (g.walls ++ [wall]) := popped_sublist
  refine ⟨?_, ?_, fun i hi => ?_, ?_, fun o' => ?_, fun x hx => ?_⟩
  · rw [h.seq, Nat.mod_eq_of_lt (by omega), List.length_append]
    rfl
  · rw [← hwall, h.ids_snoc hlt, List.length_append]
    rfl
  · have hin := (hsub.map IceWall.id).subset hi
    rw [List.map_append, List.mem_append] at hin ⊢
    exact hin.imp (h.known i) id
  · refine (hsub.map IceWall.id).nodup ?_
    rw [← hwall]
    exact h.apart hlt
  · by_cases ho : o = o'
    · rw [← ho, queue_put, ← h.recent o]
      have hown : ownedBy o (g.walls ++ [wall]) = ownedBy o g.walls ++ [wall] := by
        rw [ownedBy_append]
        simp [ownedBy, howner]
      change (ownedBy o (popOldestWalls wall.owner _ _).1).map IceWall.id = _
      rw [howner, popped_owner, Match.excess, ownerWallCount_eq, howner, hown, List.map_drop,
        List.map_append, latest, List.length_append, List.length_append, List.length_map]
      rfl
    · rw [queue_put_other ho, ← h.recent o']
      change (ownedBy o' (popOldestWalls wall.owner _ _).1).map IceWall.id = _
      rw [howner, popped_other (Ne.symm ho), ownedBy_append]
      simp [ownedBy, howner, ho]
  · rcases List.mem_append.mp (hsub.subset hx) with hx | hx
    · exact h.sound x hx
    · rw [List.mem_singleton.mp hx, ← hwall]
      exact ⟨show 0 < glooMaxHP by decide, Nat.le_refl _, rfl⟩

theorem left {walls' : List IceWall} (h : Walled walls seq raised marks) (hl : Left walls walls') :
    Walled walls' seq raised (marks ++ ((walls.map IceWall.id).filter
      fun i => decide (i ∉ walls'.map IceWall.id)).map .lost) := by
  have hsub := hl.tags.map Prod.snd
  rw [Match.ids_of_tags, Match.ids_of_tags] at hsub
  refine ⟨h.seq, h.ids, fun i hi => h.known i (hsub.subset hi), hsub.nodup h.distinct,
    fun o => ?_, hl.sound h.sound⟩
  rw [queue_lost, ← h.recent o]
  exact ids_left h.distinct hl

end Walled

-- One wall less of those that are held, from the stack that is named.
structure Kit.Spent (k k' : Kit) (order : List Nat) : Prop where
  units : k'.units glooDataID + 1 = k.units glooDataID
  named : k'.unitsAt glooDataID (k.glooCount order).1 + 1 = (k.glooCount order).2
  others : ∀ u, u ≠ (k.glooCount order).1 → k'.clientUIDs.lookup u = k.clientUIDs.lookup u

theorem tally_recount {it : InvItem} {data n : Nat} (h : it.data = data) :
    tally InvItem.count data { it with count := n } = n := if_pos h

theorem Kit.spent_placeGloo {k : Kit} {order : List Nat} (h : (k.glooCount order).2 ≠ 0) :
    k.Spent (k.placeGloo order) order := by
  obtain ⟨it, hit, hdata, hcount⟩ := (@glooCount_cases k order).resolve_left h
  have hall := weight_erase (f := tally InvItem.count glooDataID) hit
  rw [tally_self hdata] at hall
  unfold placeGloo consumeGloo
  split
  · rename_i hlast
    refine ⟨?_, ?_, fun u hu => AList.lookup_erase_ne hu⟩
    · change unitsIn (k.clientUIDs.erase _) glooDataID + 1 = unitsIn k.clientUIDs glooDataID
      unfold unitsIn
      omega
    · change ((((k.clientUIDs.erase _).lookup _).map (tally InvItem.count glooDataID)).getD 0) + 1 = _
      rw [AList.lookup_erase]
      dsimp only [Option.map_none, Option.getD_none]
      omega
  · rename_i hmore
    rw [hit]
    refine ⟨?_, ?_, fun u hu => AList.lookup_insert_ne hu⟩
    · have hset := weight_replace (f := tally InvItem.count glooDataID)
        (b := { it with count := (k.glooCount order).2 - 1 }) hit
      rw [tally_self hdata, tally_recount hdata] at hset
      change unitsIn (k.clientUIDs.insert _ _) glooDataID + 1 = unitsIn k.clientUIDs glooDataID
      unfold unitsIn
      omega
    · change ((((k.clientUIDs.insert _ _).lookup _).map (tally InvItem.count glooDataID)).getD 0) + 1 = _
      rw [AList.lookup_insert, Option.map_some, Option.getD_some, tally_recount hdata]
      omega

namespace Core

variable {w : World} {c d : Core} {s : SessionId} {m : MatchRef} {p : Packet}
  {req : PlaceIcewallReq}

theorem charged_same : (c.charged w s m).ms = c.ms ∧ (c.charged w s m).now = c.now ∧
    ((c.charged w s m).ss s).entityID = (c.ss s).entityID := by
  have hk : Keeps [.kit] c (c.charged w s m) := keeps_charged
  exact ⟨funext fun _ => ms_of_keeps hk (by decide) _, now_of_keeps hk (by decide),
    entityID_of_keeps hk (by decide) s⟩

theorem hands_charged : Hands c (c.charged w s m) s
    (if c.glooFree w m then (c.ss s).kit else (c.ss s).kit.placeGloo c.order) := by
  unfold charged
  by_cases hfree : c.glooFree w m
  · rw [if_pos hfree, if_pos hfree]
    exact hands_refl
  · rw [if_neg hfree, if_neg hfree]
    unfold deductGloo
    dsimp only
    split
    · exact (hands_onKit fun _ => _).send.broadcastData
    · exact (hands_onKit fun _ => _).send

theorem kit_charged : (((c.charged w s m).placeWall s m req).ss s).kit =
    if c.glooFree w m then (c.ss s).kit else (c.ss s).kit.placeGloo c.order :=
  (hands_charged.of_keeps (F := [.walls]) keeps_placeWall (by decide)).eq

theorem airs_charged (hd : (((c.ms m).walls ++ [(c.ms m).nextWall (c.ss s).entityID req c.now]).map
    IceWall.id).Nodup) : Airs .walls c ((c.charged w s m).placeWall s m req) := by
  obtain ⟨hms, hnow, hent⟩ := @charged_same w c s m
  have hcharged : Airs .walls c (c.charged w s m) :=
    airs_of_mute mute_charged fun _ => by rw [hms]
  refine hcharged.trans (airs_placeWall ?_) fun _ => by rw [hms]
  rw [hms, hnow, hent]
  exact hd

end Core

namespace Server

open MatchServer.Core

variable {w : World} {v v' : Server} {e : Event} {s : SessionId} {m : MatchRef}
  {req : PlaceIcewallReq} {es : List Event}

-- The walls of every match are told apart, and so is the wall that goes up.
def Apart (v : Server) (e : Event) : Prop :=
  ∀ m, (((v.core.ms m).walls ++ v.raised m e).map IceWall.id).Nodup

theorem airs_step (hw : w.AttachesOnly) (h : v.Step w e v') (hd : v.Apart e) :
    ∃ c, v.Begins e.moment c ∧ Airs .walls c v'.core := by
  have hold : ∀ m, (v.core.ms m).Distinct .walls := fun m => by
    have hm := hd m
    rw [List.map_append] at hm
    exact (List.nodup_append.mp hm).1
  cases hr : v.raising e with
  | some x =>
    obtain ⟨s, m, req⟩ := x
    obtain ⟨c, hb, hv'⟩ := raise_step h hr
    refine ⟨c, hb, ?_⟩
    rw [hv']
    refine airs_charged ?_
    have hm := hd m
    simp only [raised, hr, if_pos, wallOf] at hm
    rw [hb.ms, hb.now, entityID_of_keeps hb.keeps (by decide)]
    exact hm
  | none =>
    obtain ⟨c, hb, ⟨s, p, hrouted, hv'⟩ | ⟨m', -, -, hv'⟩ | ⟨-, -, hmute, F, hk, hF⟩⟩ := acts h
    · refine ⟨c, hb, ?_⟩
      rw [hv']
      by_cases hcmd : cmdOf p.cmd = .addIcewall
      · rw [route_idle hb hrouted hr hcmd]
        exact airs_of_mute Mute.refl fun _ => rfl
      · by_cases hcmd' : cmdOf p.cmd = .icewallTakeDamage
        · rw [Core.route, hcmd']
          exact dims_handleIcewallDamage.airs fun m => by rw [hb.ms]; exact hold m
        · have hF : mutes .walls (cmdOf p.cmd) = true ∧ Part.walls ∉ writes (cmdOf p.cmd) := by
            revert hcmd hcmd'
            cases cmdOf p.cmd <;> decide
          refine airs_of_mute (mute_route (fun _ => hw) hF.1) fun m => ?_
          have hsame := walls_of_keeps (keeps_route (w := w) (c := c) (s := s) (p := p)) hF.2 m
          rw [Prod.mk.injEq] at hsame
          simp only [Match.shows, hsame.1]
    · refine ⟨c, hb, ?_⟩
      rw [hv']
      exact airs_tick_walls fun m => by rw [hb.ms]; exact hold m
    · exact ⟨c, hb, airs_of_mute (hmute _)
        (shows_of_keeps hk (fun hm => hF _ hm (by decide)) fun hm => hF _ hm (by decide))⟩

def fallen (w : World) (m : MatchRef) (v : Server) (e : Event) : List Nat :=
  match v.step w e with
  | some v' => ((v.core.ms m).walls.map IceWall.id).filter
      fun i => decide (i ∉ (v'.core.ms m).walls.map IceWall.id)
  | none => []

def marks (w : World) (m : MatchRef) (v : Server) (e : Event) : List (Mark Nat Nat) :=
  if v.raised m e = [] then (v.fallen w m e).map .lost
  else (v.raised m e).map fun x => .put x.owner x.id

theorem walled_step (h : v.Step w e v') {rs : List IceWall} {ms : List (Mark Nat Nat)}
    (hI : Walled (v.core.ms m).walls (v.core.ms m).wallSeq rs ms)
    (hlt : (rs ++ v.raised m e).length < 2 ^ 24) :
    Walled (v'.core.ms m).walls (v'.core.ms m).wallSeq (rs ++ v.raised m e) (ms ++ v.marks w m e) := by
  by_cases hr : v.raised m e = []
  · have hleft : Left (v.core.ms m).walls (v'.core.ms m).walls ∧
        (v'.core.ms m).wallSeq = (v.core.ms m).wallSeq := by
      cases hx : v.raising e with
      | none => exact left_step h hx m
      | some x =>
        obtain ⟨s, m', req⟩ := x
        have hne : m ≠ m' := by
          rintro rfl
          simp [raised, hx] at hr
        obtain ⟨c, hb, hv'⟩ := raise_step h hx
        rw [hv', ms_placeWall_of_ne hne, charged_same.1, hb.ms]
        exact ⟨⟨List.Sublist.refl _, id⟩, rfl⟩
    have hfallen : v.fallen w m e = ((v.core.ms m).walls.map IceWall.id).filter
        fun i => decide (i ∉ (v'.core.ms m).walls.map IceWall.id) := by
      rw [fallen, show v.step w e = some v' from h]
    rw [marks, if_pos hr, hr, List.append_nil, hleft.2, hfallen]
    exact hI.left hleft.1
  · cases hx : v.raising e with
    | none => exact absurd (by rw [raised, hx]) hr
    | some x =>
      obtain ⟨s, m', req⟩ := x
      have hm : m' = m := by
        by_contra hne
        exact hr (by simp [raised, hx, hne])
      subst hm
      have hraised : v.raised m' e = [v.wallOf e s m' req] := by simp [raised, hx]
      obtain ⟨c, hb, hv'⟩ := raise_step h hx
      rw [marks, if_neg hr, hraised]
      rw [hraised, List.length_append] at hlt
      have hwall : ((c.charged w s m').ms m').nextWall ((c.charged w s m').ss s).entityID req
          (c.charged w s m').now = v.wallOf e s m' req := by
        obtain ⟨hms, hnow, hent⟩ := @charged_same w c s m'
        rw [hms, hnow, hent, hb.ms, hb.now, entityID_of_keeps hb.keeps (by decide)]
        rfl
      rw [hv', ms_placeWall.1, ms_placeWall.2, hwall, charged_same.1, hb.ms]
      exact hI.raise hlt

def raisedIn (w : World) (m : MatchRef) (es : List Event) : List IceWall :=
  logged (step w) (raised m) start es

def marksIn (w : World) (m : MatchRef) (es : List Event) : List (Mark Nat Nat) :=
  logged (step w) (marks w m) start es

theorem raisedIn_snoc (h : Run (Step w) start es v) :
    raisedIn w m (es ++ [e]) = raisedIn w m es ++ v.raised m e := logged_snoc h

theorem walled_run (h : Run (Step w) start es v) (hlt : (raisedIn w m es).length < 2 ^ 24) :
    Walled (v.core.ms m).walls (v.core.ms m).wallSeq (raisedIn w m es) (marksIn w m es) := by
  induction h with
  | start => exact .start
  | @next es v v' e hr hs ih =>
    rw [raisedIn_snoc hr] at hlt ⊢
    have hmarks : marksIn w m (es ++ [e]) = marksIn w m es ++ v.marks w m e := logged_snoc hr
    rw [hmarks]
    refine walled_step hs (ih ?_) hlt
    rw [List.length_append] at hlt
    omega

theorem apart_step {rs : List IceWall} {ms : List (Mark Nat Nat)}
    (hI : Walled (v.core.ms m).walls (v.core.ms m).wallSeq rs ms)
    (hlt : (rs ++ v.raised m e).length < 2 ^ 24) :
    (((v.core.ms m).walls ++ v.raised m e).map IceWall.id).Nodup := by
  unfold raised at hlt ⊢
  split at hlt
  · split at hlt
    · rename_i s m' req hx hm
      rw [List.length_append] at hlt
      rw [if_pos hm]
      exact hI.apart hlt
    · rename_i s m' req hx hm
      rw [if_neg hm, List.append_nil]
      exact hI.distinct
  · rename_i hx
    rw [List.append_nil]
    exact hI.distinct

theorem aired_walls (hw : w.AttachesOnly) (h : Run (Step w) start es v)
    (hlt : ∀ m, (raisedIn w m es).length < 2 ^ 24) :
    ∃ log, Aired w .walls (fun _ _ _ => True) es v log ∧
      ∀ m, mirror ∅ (about m log) = (v.core.ms m).shows .walls := by
  induction h with
  | start => exact ⟨[], .start, fun _ => rfl⟩
  | @next es v v' e hr hs ih =>
    have hsplit : ∀ m, (raisedIn w m es ++ v.raised m e).length < 2 ^ 24 := fun m => by
      rw [← raisedIn_snoc hr]
      exact hlt m
    have hbefore : ∀ m, (raisedIn w m es).length < 2 ^ 24 := fun m => by
      have hm := hsplit m
      rw [List.length_append] at hm
      omega
    obtain ⟨log, hlog, hm⟩ := ih hbefore
    obtain ⟨c, hb, l, hl, hl'⟩ := airs_step hw hs fun m =>
      apart_step (walled_run hr (hbefore m)) (hsplit m)
    refine ⟨log ++ l, .next hlog hs fun p _ => ?_, fun m => ?_⟩
    · rw [hl p, hb.silent, List.nil_append]
      exact hears_congr fun m => by rw [hb.ms]
    · rw [about_append, mirror_append, hm m, ← hl' m, hb.ms]

theorem spent_step (h : v.Step w e v') (hr : v.raising e = some (s, m, req)) :
    if v.core.glooFree w m then (v'.core.ss s).kit = (v.core.ss s).kit
    else (v.core.ss s).kit.Spent (v'.core.ss s).kit e.moment.order := by
  obtain ⟨p, -, -, -, -, hcount⟩ := raising_eq_some.mp hr
  obtain ⟨c, hb, hv'⟩ := raise_step h hr
  have hfree : c.glooFree w m ↔ v.core.glooFree w m := by
    unfold glooFree
    rw [hb.ms]
  rw [hv', kit_charged, hb.kit, hb.order]
  by_cases hf : v.core.glooFree w m
  · rw [if_pos hf, if_pos (hfree.mpr hf)]
  · rw [if_neg hf, if_neg (mt hfree.mp hf)]
    exact Kit.spent_placeGloo hcount

structure GlooWalls (w : World) (es : List Event) (v : Server) (m : MatchRef) : Prop where
  capped : ∀ o, ownerWallCount o (v.core.ms m).walls ≤ glooWallCap
  recent : ∀ o, (ownedBy o (v.core.ms m).walls).map IceWall.id = queue glooWallCap o (marksIn w m es)
  distinct : ((v.core.ms m).walls.map IceWall.id).Nodup
  fresh : ((raisedIn w m es).map IceWall.id).Nodup
  known : ∀ x ∈ (v.core.ms m).walls, x.id ∈ (raisedIn w m es).map IceWall.id
  sound : ∀ x ∈ (v.core.ms m).walls, x.Sound
  spent : ∀ s req e v', v.Step w e v' → v.raising e = some (s, m, req) →
    if v.core.glooFree w m then (v'.core.ss s).kit = (v.core.ss s).kit
    else (v.core.ss s).kit.Spent (v'.core.ss s).kit e.moment.order

theorem walls_capped {walls : List IceWall} {seq o : Nat} {rs : List IceWall}
    {ms : List (Mark Nat Nat)} (h : Walled walls seq rs ms) : ownerWallCount o walls ≤ glooWallCap := by
  rw [ownerWallCount_eq, ← List.length_map IceWall.id, h.recent o]
  exact queue_length

theorem gloo_walls (hw : w.AttachesOnly) (h : Run (Step w) start es v)
    (hlt : ∀ m, (raisedIn w m es).length < 2 ^ 24) :
    (∀ m, GlooWalls w es v m) ∧ ∃ log, Aired w .walls (fun _ _ _ => True) es v log ∧
      ∀ m, mirror ∅ (about m log) = (v.core.ms m).shows .walls := by
  refine ⟨fun m => ?_, aired_walls hw h hlt⟩
  have hI := walled_run h (hlt m)
  exact ⟨fun _ => walls_capped hI, hI.recent, hI.distinct, hI.fresh,
    fun x hx => hI.known _ (List.mem_map_of_mem hx), hI.sound,
    fun _ _ _ _ hs hr => spent_step hs hr⟩

theorem raisedIn_length : (raisedIn w m es).length ≤ es.length := by
  refine length_logged fun t e => ?_
  unfold raised
  split
  · split
    · exact Nat.le_refl 1
    · exact Nat.zero_le 1
  · exact Nat.zero_le 1

theorem gloo_walls_of_placed : ∃ v, Run (Step shopWorld) start wallPlaced v ∧
    (v.core.ms 0).walls.length = 1 ∧ (∀ m, GlooWalls shopWorld wallPlaced v m) ∧
      ∃ log, Aired shopWorld .walls (fun _ _ _ => True) wallPlaced v log ∧
        ∀ m, mirror ∅ (about m log) = (v.core.ms m).shows .walls := by
  have hrun : ((wallPlaced.foldlM (step shopWorld) start).map fun v : Server =>
      (v.core.ms 0).walls.length) = some 1 := by
    decide +kernel
  obtain ⟨v, hv, hone⟩ := Option.map_eq_some_iff.mp hrun
  have hbound : wallPlaced.length < 2 ^ 24 := by decide
  exact ⟨v, run_of_foldlM hv, hone, gloo_walls (fun _ _ _ h => absurd h List.not_mem_nil)
    (run_of_foldlM hv) fun _ => Nat.lt_of_le_of_lt raisedIn_length hbound⟩

end Server

end MatchServer
