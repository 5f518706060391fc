import Madoka.Matchmaker.Leader
import Mathlib.Data.List.Basic

namespace Matchmaker

open Lib

theorem cut_inj {α : Type} {x : α} {l l' s s' : List α} (h : x ∉ l) (h' : x ∉ l')
    (heq : l ++ x :: s = l' ++ x :: s') : l = l' ∧ s = s' := by
  induction l generalizing l' with
  | nil =>
    cases l' with
    | nil => exact ⟨rfl, (List.cons.inj heq).2⟩
    | cons y l' =>
      obtain ⟨rfl, -⟩ := List.cons.inj heq
      exact absurd List.mem_cons_self h'
  | cons y l ih =>
    cases l' with
    | nil =>
      obtain ⟨rfl, -⟩ := List.cons.inj heq
      exact absurd List.mem_cons_self h
    | cons y' l' =>
      obtain ⟨rfl, hrest⟩ := List.cons.inj heq
      rw [List.mem_cons, not_or] at h h'
      obtain ⟨rfl, rfl⟩ := ih h.2 h'.2 hrest
      exact ⟨rfl, rfl⟩

theorem decimal_append {m n : Nat} {s s' : String}
    (h : toString m ++ ":" ++ s = toString n ++ ":" ++ s') : m = n ∧ s = s' := by
  have hcolon : ∀ k : Nat, ':' ∉ Nat.toDigits 10 k := fun k hk => by
    have hdigit := Nat.isDigit_of_mem_toDigits (by decide) (by decide) hk
    exact absurd hdigit (by decide)
  have hlist : Nat.toDigits 10 m ++ ':' :: s.toList = Nat.toDigits 10 n ++ ':' :: s'.toList := by
    have hchars := congrArg String.toList h
    simpa [String.toList_append] using hchars
  obtain ⟨hdigits, hrest⟩ := cut_inj (hcolon m) (hcolon n) hlist
  refine ⟨?_, String.toList_inj.mp hrest⟩
  have hback := congrArg (fun l => Nat.ofDigitChars 10 l 0) hdigits
  simpa [Nat.ofDigitChars_ten_toDigits] using hback

theorem decimal_inj {m n : Nat} (h : toString m = toString n) : m = n := by
  have hdigits := congrArg String.toList h
  have hback := congrArg (fun l => Nat.ofDigitChars 10 l 0) hdigits
  simpa [Nat.ofDigitChars_ten_toDigits] using hback

theorem modeKey_nested (m : Mode) : modeKey m = toString m.matchMode ++ ":" ++
    (toString m.gameMode ++ ":" ++ (toString m.mapId ++ ":" ++ toString m.difficulty)) := by
  simp only [modeKey, String.append_assoc]

theorem modeKey_inj {m m' : Mode} (h : modeKey m = modeKey m') : m = m' := by
  obtain ⟨map, game, mode, diff⟩ := m
  obtain ⟨map', game', mode', diff'⟩ := m'
  rw [modeKey_nested, modeKey_nested] at h
  obtain ⟨hmode, h⟩ := decimal_append h
  obtain ⟨hgame, h⟩ := decimal_append h
  obtain ⟨hmap, h⟩ := decimal_append h
  have hdiff := decimal_inj h
  dsimp only at hmode hgame hmap hdiff
  rw [hmode, hgame, hmap, hdiff]

structure Match where
  matchId : Nat
  serverAddr : String
  now : Int
  entries : List Entry
  deriving DecidableEq, Repr

-- What MatchmakingSussNtf tells a player of it.
structure SussNtf where
  targetAccountId : Nat
  matchId : Nat
  serverAddr : String
  mapId : Nat
  gameMode : Nat
  matchMode : Nat
  difficulty : Nat
  deriving DecidableEq, Repr

-- The match mode is forced.
def suss (matchId : Nat) (serverAddr : String) (mode : Mode) (x : Entry) : SussNtf :=
  ⟨x.accountId, matchId, serverAddr, mode.mapId, mode.gameMode, 6, mode.difficulty⟩

-- What is sure of a batch of a snapshot: one mode, each player once, oldest first and nobody older
-- left out, enough of them or too long.
structure Formable (t : Tuning) (now : Int) (snapshot entries : List Entry) : Prop where
  waiting : entries ⊆ snapshot
  size : entries.length ≤ t.matchSize
  once : (entries.map Entry.accountId).Nodup
  mode : ∀ x ∈ entries, ∀ y ∈ entries, x.mode = y.mode
  order : entries.Pairwise (before Entry.joinedAt)
  oldest : ∀ x ∈ snapshot, x ∉ entries → (∃ y ∈ entries, y.mode = x.mode) →
    entries.length = t.matchSize ∧ ∀ y ∈ entries, y.joinedAt ≤ x.joinedAt
  due : entries ≠ [] → min t.minPlayers t.matchSize ≤ entries.length ∨
    ∃ x ∈ entries, t.timeoutMs ≤ now - x.joinedAt

-- A batch of what a tick read of the queue at its date.
def Drawn (t : Tuning) (rs : List (Int × Queue)) (now : Int) (entries : List Entry) : Prop :=
  ∃ snapshot, (now, snapshot) ∈ rs ∧ Formable t now snapshot entries

variable {t : Tuning} {now : Int} {snapshot b : List Entry}

theorem formable_plan (hd : (snapshot.map Entry.accountId).Nodup) (h : b ∈ plan t now snapshot) :
    Formable t now snapshot b := by
  obtain ⟨⟨key, entries⟩, hg, hb⟩ := List.mem_filterMap.mp h
  obtain ⟨hentries, -⟩ := mem_groups.mp hg
  unfold batch at hb
  obtain ⟨hwhy, rfl⟩ := Option.ite_none_right_eq_some.mp hb |>.imp_right Option.some.inj
  have hsub : (oldest Entry.joinedAt t.matchSize entries).Subperm snapshot :=
    oldest_subperm.trans (hentries ▸ List.filter_sublist.subperm)
  have hkey : ∀ z ∈ oldest Entry.joinedAt t.matchSize entries, z.key = key := fun z hz => by
    have hz' := mem_of_oldest hz
    rw [hentries, List.mem_filter, decide_eq_true_eq] at hz'
    exact hz'.2
  refine ⟨hsub.subset, ?_, ?_, fun x hx y hy => ?_, sorted_oldest, fun x hx hout ⟨y, hy, hmode⟩ => ?_,
    fun hne => ?_⟩
  · rw [length_oldest]
    exact Nat.min_le_left ..
  · obtain ⟨l, hperm, hl⟩ := hsub
    exact (hperm.map Entry.accountId).nodup_iff.mp (hd.sublist (hl.map Entry.accountId))
  · exact modeKey_inj ((hkey x hx).trans (hkey y hy).symm)
  · refine bypassed ?_ hout
    rw [hentries, List.mem_filter, decide_eq_true_eq]
    exact ⟨hx, (congrArg modeKey hmode).symm.trans (hkey y hy)⟩
  · rcases hwhy with hmin | hany
    · refine Or.inl ?_
      rw [length_oldest]
      exact Nat.le_min.mpr ⟨Nat.min_le_right .., (Nat.min_le_left ..).trans hmin⟩
    · obtain ⟨x, hx, hlate⟩ := List.any_eq_true.mp hany
      rw [decide_eq_true_eq] at hlate
      by_cases hin : x ∈ oldest Entry.joinedAt t.matchSize entries
      · exact Or.inr ⟨x, hin, hlate⟩
      · obtain ⟨y, hy⟩ := List.exists_mem_of_ne_nil _ hne
        have hle := (bypassed hx hin).2 y hy
        exact Or.inr ⟨y, hy, by omega⟩

structure Match.Sound (t : Tuning) (rs : List (Int × Queue)) (m : Match) : Prop where
  some : m.entries ≠ []
  drawn : Drawn t rs m.now m.entries

def Match.notices (m : Match) : List SussNtf :=
  m.entries.map fun x => suss m.matchId m.serverAddr x.mode x

def Job.matchId : Job → Option Nat
  | .claiming _ id _ _ _ => Option.some id
  | .pushing _ id _ _ _ _ => Option.some id
  | _ => none

-- The match of a tick that has claimed its players; `entries` are still to be told.
structure Telling (ms : List Match) (ps : List SussNtf) (id : Nat) (addr : String) (mode : Mode)
    (entries : List Entry) : Prop where
  formed : ∃ m ∈ ms, m.matchId = id ∧ m.serverAddr = addr ∧ (∀ x ∈ m.entries, x.mode = mode) ∧
    entries <:+ m.entries
  fresh : ∀ x ∈ entries, (id, x.accountId) ∉ ps.map fun p => (p.matchId, p.targetAccountId)

def Job.Sound (t : Tuning) (rs : List (Int × Queue)) (ms : List Match) (ps : List SussNtf) : Job → Prop
  | .idle => True
  | .reading => True
  | .numbering now entries rest => ∀ b ∈ entries :: rest, Drawn t rs now b
  | .claiming now id _ entries rest =>
    (∀ b ∈ entries :: rest, Drawn t rs now b) ∧ id ∉ ms.map Match.matchId
  | .pushing now id addr mode entries rest =>
    (∀ b ∈ rest, Drawn t rs now b) ∧ Telling ms ps id addr mode entries

-- The counter, the jobs, the matches, the ids that rooms drew and what the players were told.
structure Tidy (t : Tuning) (rs : List (Int × Queue)) (seq : Nat) (jobs : Nat → Job) (ms : List Match) (rooms : List Nat)
    (ps : List SussNtf) : Prop where
  safe : ∀ r, (jobs r).Sound t rs ms ps
  own : ∀ r r' id, (jobs r).matchId = Option.some id → (jobs r').matchId = Option.some id → r = r'
  drawn : ∀ r id, (jobs r).matchId = Option.some id → id ≤ seq ∧ id ∉ rooms
  below : ∀ id ∈ ms.map Match.matchId ++ rooms, id ≤ seq
  apart : (ms.map Match.matchId ++ rooms).Nodup
  sound : ∀ m ∈ ms, m.Sound t rs
  told : ∀ p ∈ ps, ∃ m ∈ ms, p ∈ m.notices
  once : (ps.map fun p => (p.matchId, p.targetAccountId)).Nodup

section Tidy

variable {rs : List (Int × Queue)} {seq : Nat} {jobs : Nat → Job} {ms : List Match} {rooms : List Nat} {ps : List SussNtf}
  {r : Nat} {job : Job}

theorem sound_next {rest : List (List Entry)} (h : ∀ b ∈ rest, Drawn t rs now b) :
    (Job.next now rest).Sound t rs ms ps := by
  cases rest with
  | nil => trivial
  | cons b rest => exact h

theorem matchId_next {rest : List (List Entry)} : (Job.next now rest).matchId = none := by
  cases rest with
  | nil => rfl
  | cons b rest => rfl

theorem Tidy.idle (h : Tidy t rs seq jobs ms rooms ps) (hs : job.Sound t rs ms ps)
    (hid : job.matchId = none) : Tidy t rs seq (Function.update jobs r job) ms rooms ps := by
  have hold : ∀ r' id, (Function.update jobs r job r').matchId = Option.some id →
      (jobs r').matchId = Option.some id := fun r' id hm => by
    by_cases hr : r' = r
    · subst hr
      rw [Function.update_self, hid] at hm
      exact absurd hm.symm (Option.some_ne_none id)
    · rwa [Function.update_of_ne hr] at hm
  refine ⟨fun r' => ?_, fun r' r'' id h1 h2 => h.own r' r'' id (hold r' id h1) (hold r'' id h2),
    fun r' id hm => h.drawn r' id (hold r' id hm), h.below, h.apart, h.sound, h.told, h.once⟩
  by_cases hr : r' = r
  · subst hr
    rw [Function.update_self]
    exact hs
  · rw [Function.update_of_ne hr]
    exact h.safe r'

theorem Drawn.more {rs' : List (Int × Queue)} (h : Drawn t rs now b) : Drawn t (rs ++ rs') now b := by
  obtain ⟨snapshot, hin, hform⟩ := h
  exact ⟨snapshot, List.mem_append_left _ hin, hform⟩

theorem Tidy.read {rs' : List (Int × Queue)} (h : Tidy t rs seq jobs ms rooms ps) :
    Tidy t (rs ++ rs') seq jobs ms rooms ps := by
  refine ⟨fun r => ?_, h.own, h.drawn, h.below, h.apart, fun m hm => ?_, h.told, h.once⟩
  · have hsafe := h.safe r
    revert hsafe
    cases jobs r with
    | numbering _ _ _ => exact fun hs b hb => (hs b hb).more
    | claiming _ _ _ _ _ => exact fun hs => ⟨fun b hb => (hs.1 b hb).more, hs.2⟩
    | pushing _ _ _ _ _ _ => exact fun hs => ⟨fun b hb => (hs.1 b hb).more, hs.2⟩
    | _ => exact id
  · exact ⟨(h.sound m hm).some, (h.sound m hm).drawn.more⟩

theorem Tidy.mint (h : Tidy t rs seq jobs ms rooms ps) : Tidy t rs (seq + 1) jobs ms rooms ps :=
  ⟨h.safe, h.own, fun r id hm => ⟨(h.drawn r id hm).1.trans (Nat.le_succ _), (h.drawn r id hm).2⟩,
    fun id hid => (h.below id hid).trans (Nat.le_succ _), h.apart, h.sound, h.told, h.once⟩

theorem Tidy.room (h : Tidy t rs seq jobs ms rooms ps) :
    Tidy t rs (seq + 1) jobs ms (rooms ++ [seq + 1]) ps := by
  have hnew : seq + 1 ∉ ms.map Match.matchId ++ rooms := fun hm => by
    have hle := h.below _ hm
    omega
  refine ⟨h.safe, h.own, fun r id hm => ?_, fun id hid => ?_, ?_, h.sound, h.told, h.once⟩
  · obtain ⟨hle, hout⟩ := h.drawn r id hm
    refine ⟨hle.trans (Nat.le_succ _), fun hin => ?_⟩
    rcases List.mem_append.mp hin with hin | hin
    · exact hout hin
    · rw [List.mem_singleton] at hin
      omega
  · rw [← List.append_assoc, List.mem_append, List.mem_singleton] at hid
    rcases hid with hid | rfl
    · exact (h.below id hid).trans (Nat.le_succ _)
    · exact Nat.le_refl _
  · rw [← List.append_assoc]
    refine List.nodup_append.mpr ⟨h.apart, List.nodup_singleton _, fun a ha b hb hab => ?_⟩
    rw [List.mem_singleton] at hb
    exact hnew (hb ▸ hab ▸ ha)

theorem Tidy.number {addr : String} {entries : List Entry} {rest : List (List Entry)}
    (h : Tidy t rs seq jobs ms rooms ps) (hjob : jobs r = .numbering now entries rest) :
    Tidy t rs (seq + 1) (Function.update jobs r (.claiming now (seq + 1) addr entries rest)) ms rooms
      ps := by
  have hnew : seq + 1 ∉ ms.map Match.matchId ++ rooms := fun hm => by
    have hle := h.below _ hm
    omega
  rw [List.mem_append, not_or] at hnew
  have hother : ∀ r' id, (jobs r').matchId = Option.some id → id ≠ seq + 1 := fun r' id hm => by
    have hle := (h.drawn r' id hm).1
    omega
  have hsafe := h.safe r
  rw [hjob] at hsafe
  refine ⟨fun r' => ?_, fun r' r'' id h1 h2 => ?_, fun r' id hm => ?_,
    h.mint.below, h.apart, h.sound, h.told, h.once⟩
  · by_cases hr : r' = r
    · subst hr
      rw [Function.update_self]
      exact ⟨hsafe, hnew.1⟩
    · rw [Function.update_of_ne hr]
      exact h.safe r'
  · by_cases hr : r' = r
    · subst hr
      rw [Function.update_self] at h1
      by_cases hr' : r'' = r'
      · exact hr'.symm
      · rw [Function.update_of_ne hr'] at h2
        exact absurd (Option.some.inj h1).symm (hother r'' id h2)
    · rw [Function.update_of_ne hr] at h1
      by_cases hr' : r'' = r
      · subst hr'
        rw [Function.update_self] at h2
        exact absurd (Option.some.inj h2).symm (hother r' id h1)
      · rw [Function.update_of_ne hr'] at h2
        exact h.own r' r'' id h1 h2
  · by_cases hr : r' = r
    · subst hr
      rw [Function.update_self] at hm
      obtain rfl := Option.some.inj hm
      exact ⟨Nat.le_refl _, hnew.2⟩
    · rw [Function.update_of_ne hr] at hm
      exact h.mint.drawn r' id hm

theorem Tidy.onward {ms' : List Match} {ps' : List SussNtf} (h : Tidy t rs seq jobs ms rooms ps)
    (hid : job.matchId = (jobs r).matchId) (hs : job.Sound t rs ms' ps')
    (hold : ∀ r', r' ≠ r → (jobs r').Sound t rs ms' ps')
    (hbelow : ∀ id ∈ ms'.map Match.matchId ++ rooms, id ≤ seq)
    (hapart : (ms'.map Match.matchId ++ rooms).Nodup) (hsound : ∀ m ∈ ms', m.Sound t rs)
    (htold : ∀ p ∈ ps', ∃ m ∈ ms', p ∈ m.notices)
    (honce : (ps'.map fun p => (p.matchId, p.targetAccountId)).Nodup) :
    Tidy t rs seq (Function.update jobs r job) ms' rooms ps' := by
  have hsame : ∀ r', (Function.update jobs r job r').matchId = (jobs r').matchId := fun r' => by
    by_cases hr : r' = r
    · subst hr
      rw [Function.update_self, hid]
    · rw [Function.update_of_ne hr]
  refine ⟨fun r' => ?_, fun r' r'' id h1 h2 => ?_, fun r' id hm => ?_, hbelow, hapart, hsound, htold,
    honce⟩
  · by_cases hr : r' = r
    · subst hr
      rw [Function.update_self]
      exact hs
    · rw [Function.update_of_ne hr]
      exact hold r' hr
  · rw [hsame] at h1 h2
    exact h.own r' r'' id h1 h2
  · rw [hsame] at hm
    exact h.drawn r' id hm

theorem Tidy.claim {id : Nat} {addr : String} {e : Entry} {entries : List Entry}
    {rest : List (List Entry)} (h : Tidy t rs seq jobs ms rooms ps)
    (hjob : jobs r = .claiming now id addr (e :: entries) rest) :
    Tidy t rs seq (Function.update jobs r (.pushing now id addr e.mode (e :: entries) rest))
      (ms ++ [⟨id, addr, now, e :: entries⟩]) rooms ps := by
  have hsafe := h.safe r
  rw [hjob] at hsafe
  obtain ⟨hform, hfresh⟩ := hsafe
  have hmine : (jobs r).matchId = Option.some id := by rw [hjob]; rfl
  obtain ⟨hseq, hroom⟩ := h.drawn r id hmine
  have htold : ∀ p ∈ ps, ∃ m ∈ ms ++ [⟨id, addr, now, e :: entries⟩], p ∈ m.notices := fun p hp => by
    obtain ⟨m, hm, hpm⟩ := h.told p hp
    exact ⟨m, List.mem_append_left _ hm, hpm⟩
  have hunsent : ∀ a, (id, a) ∉ ps.map fun p => (p.matchId, p.targetAccountId) := fun a hin => by
    obtain ⟨p, hp, heq⟩ := List.mem_map.mp hin
    obtain ⟨m, hm, hpm⟩ := h.told p hp
    obtain ⟨x, -, rfl⟩ := List.mem_map.mp hpm
    exact hfresh (List.mem_map.mpr ⟨m, hm, (Prod.mk.inj heq).1⟩)
  have hids : (ms ++ [(⟨id, addr, now, e :: entries⟩ : Match)]).map Match.matchId ++ rooms =
      ms.map Match.matchId ++ id :: rooms := by simp
  obtain ⟨_, _, hbatch⟩ := hform _ List.mem_cons_self
  have hmode : ∀ x ∈ e :: entries, x.mode = e.mode := fun x hx =>
    hbatch.mode x hx e List.mem_cons_self
  have htelling : Telling (ms ++ [⟨id, addr, now, e :: entries⟩]) ps id addr e.mode (e :: entries) :=
    ⟨⟨_, List.mem_append_right _ (List.mem_singleton_self _), rfl, rfl, hmode, List.suffix_refl _⟩,
      fun x _ => hunsent x.accountId⟩
  refine h.onward (by rw [hjob]; rfl) ⟨fun b hb => hform b (List.mem_cons_of_mem _ hb), htelling⟩
    (fun r' hr => ?_) (fun id' hin => ?_) ?_ (fun m hm => ?_) htold h.once
  · have hs := h.safe r'
    have hother : ∀ id', (jobs r').matchId = Option.some id' → id' ≠ id := fun id' hm heq =>
      hr (h.own r' r id' hm (heq ▸ hmine))
    revert hs hother
    cases jobs r' with
    | claiming now' id' addr' entries' rest' =>
      intro hs hother
      refine ⟨hs.1, ?_⟩
      rw [List.map_append, List.mem_append, not_or]
      exact ⟨hs.2, by simpa using hother id' rfl⟩
    | pushing now' id' addr' mode' entries' rest' =>
      rintro ⟨hrest, ⟨m, hm, hformed⟩, hnew⟩ -
      exact ⟨hrest, ⟨m, List.mem_append_left _ hm, hformed⟩, hnew⟩
    | _ => exact fun hs _ => hs
  · rw [hids, List.mem_append, List.mem_cons] at hin
    rcases hin with hin | rfl | hin
    · exact h.below id' (List.mem_append_left _ hin)
    · exact hseq
    · exact h.below id' (List.mem_append_right _ hin)
  · rw [hids]
    refine (List.perm_middle.nodup_iff).mpr (List.nodup_cons.mpr ⟨?_, h.apart⟩)
    rw [List.mem_append, not_or]
    exact ⟨hfresh, hroom⟩
  · rcases List.mem_append.mp hm with hm | hm
    · exact h.sound m hm
    · rw [List.mem_singleton] at hm
      subst hm
      exact ⟨List.cons_ne_nil _ _, hform _ List.mem_cons_self⟩

theorem Tidy.push {id : Nat} {addr : String} {mode : Mode} {x : Entry} {entries : List Entry}
    {rest : List (List Entry)} (h : Tidy t rs seq jobs ms rooms ps)
    (hjob : jobs r = .pushing now id addr mode (x :: entries) rest) (found : Bool) :
    Tidy t rs seq (Function.update jobs r (.pushing now id addr mode entries rest)) ms rooms
      (ps ++ if found then [suss id addr mode x] else []) := by
  have hsafe := h.safe r
  rw [hjob] at hsafe
  obtain ⟨hrest, ⟨m, hm, hid, haddr, hmode, hsuffix⟩, hfresh⟩ := hsafe
  have hmine : (jobs r).matchId = Option.some id := by rw [hjob]; rfl
  obtain ⟨_, _, hform⟩ := (h.sound m hm).drawn
  have hdistinct : ((x :: entries).map Entry.accountId).Nodup :=
    hform.once.sublist (hsuffix.sublist.map _)
  rw [List.map_cons, List.nodup_cons] at hdistinct
  have hformed : ∃ m ∈ ms, m.matchId = id ∧ m.serverAddr = addr ∧
      (∀ x ∈ m.entries, x.mode = mode) ∧ entries <:+ m.entries :=
    ⟨m, hm, hid, haddr, hmode, (List.suffix_cons _ _).trans hsuffix⟩
  have hkeys : (ps ++ if found then [suss id addr mode x] else []).map
      (fun p => (p.matchId, p.targetAccountId)) =
      ps.map (fun p => (p.matchId, p.targetAccountId)) ++
        if found then [(id, x.accountId)] else [] := by
    cases found <;> simp [suss]
  have hsub : ∀ id' a, (id', a) ∈ (if found then [(id, x.accountId)] else []) →
      id' = id ∧ a = x.accountId := fun id' a hin => by
    cases found with
    | true => simpa using hin
    | false => exact absurd hin List.not_mem_nil
  refine h.onward (by rw [hjob]; rfl) ⟨hrest, hformed, fun y hy => ?_⟩ (fun r' hr => ?_) h.below
    h.apart h.sound (fun p hp => ?_) ?_
  · rw [hkeys, List.mem_append, not_or]
    refine ⟨hfresh y (List.mem_cons_of_mem _ hy), fun hin => hdistinct.1 ?_⟩
    exact List.mem_map.mpr ⟨y, hy, (hsub _ _ hin).2⟩
  · have hs := h.safe r'
    have hother : ∀ id', (jobs r').matchId = Option.some id' → id' ≠ id := fun id' hm heq =>
      hr (h.own r' r id' hm (heq ▸ hmine))
    revert hs hother
    cases jobs r' with
    | pushing now' id' addr' mode' entries' rest' =>
      rintro ⟨hrest', hformed', hnew⟩ hother
      refine ⟨hrest', hformed', fun y hy => ?_⟩
      rw [hkeys, List.mem_append, not_or]
      exact ⟨hnew y hy, fun hin => hother id' rfl (hsub _ _ hin).1⟩
    | _ => exact fun hs _ => hs
  · rcases List.mem_append.mp hp with hp | hp
    · exact h.told p hp
    · cases found with
      | false => exact absurd hp List.not_mem_nil
      | true =>
        rw [if_pos rfl, List.mem_singleton] at hp
        have hx := hsuffix.subset List.mem_cons_self
        refine ⟨m, hm, List.mem_map.mpr ⟨x, hx, ?_⟩⟩
        rw [hp, hid, haddr, hmode x hx]
  · rw [hkeys]
    refine List.nodup_append.mpr ⟨h.once, ?_, fun a ha b hb hab => ?_⟩
    · cases found with
      | false => exact List.nodup_nil
      | true => exact List.nodup_singleton _
    · obtain ⟨hb1, hb2⟩ := hsub b.1 b.2 hb
      refine hfresh x List.mem_cons_self ?_
      have hbx : b = (id, x.accountId) := Prod.ext hb1 hb2
      rw [← hbx, ← hab]
      exact ha

end Tidy

namespace System

variable {v v' : System} {e : Event} {es : List Event} {rs : List (Int × Queue)} {ms : List Match}
  {ids : List Nat} {ps : List SussNtf}

def readings (_ : System) (e : Event) : List (Int × Queue) :=
  match e.act with
  | .read _ snapshot date => [(date, snapshot)]
  | _ => []

def formed (v : System) (e : Event) : List Match :=
  match e.act with
  | .claim r =>
    match (v.replicas r).job with
    | .claiming now id addr entries _ => [⟨id, addr, now, entries⟩]
    | _ => []
  | _ => []

def roomIds (v : System) (e : Event) : List Nat :=
  match e.act with
  | .nextMatchId => [v.seq + 1]
  | _ => []

def pushes (v : System) (e : Event) : List SussNtf :=
  match e.act with
  | .push r found =>
    match (v.replicas r).job with
    | .pushing _ id addr mode (x :: _) _ => if found then [suss id addr mode x] else []
    | _ => []
  | _ => []

def queueRead (t : Tuning) (es : List Event) : List (Int × Queue) := logged (step t) readings start es

def matchesFormed (t : Tuning) (es : List Event) : List Match := logged (step t) formed start es

def roomsStarted (t : Tuning) (es : List Event) : List Nat := logged (step t) roomIds start es

def playersTold (t : Tuning) (es : List Event) : List SussNtf := logged (step t) pushes start es

def jobs (v : System) (r : Nat) : Job := (v.replicas r).job

theorem jobs_onReplica {r : Nat} {f : Replica → Replica} :
    (v.onReplica r f).jobs = Function.update v.jobs r (f (v.replicas r)).job := by
  funext r'
  by_cases hr : r' = r
  · subst hr
    rw [Function.update_self]
    exact congrArg Replica.job onReplica_self
  · rw [Function.update_of_ne hr]
    exact congrArg Replica.job (onReplica_of_ne hr)

theorem jobs_onJob {r : Nat} {job : Job} : (v.onJob r job).jobs = Function.update v.jobs r job :=
  jobs_onReplica

def Single (q : Queue) : Prop := (q.map Entry.accountId).Nodup

theorem single_hset {q : Queue} (h : Single q) (e : Entry) : Single (hset q e) := by
  unfold Single hset
  rw [List.map_append]
  refine List.nodup_append.mpr ⟨h.sublist (List.filter_sublist.map _), List.nodup_singleton _,
    fun a ha b hb hab => ?_⟩
  obtain ⟨x, hx, rfl⟩ := List.mem_map.mp ha
  rw [List.mem_filter, decide_eq_true_eq] at hx
  exact hx.2 (hab.trans (by simpa using hb))

theorem single_hdel {q : Queue} (h : Single q) (ids : List Nat) : Single (hdel q ids) :=
  h.sublist (List.filter_sublist.map _)

theorem single_fires {a : Action} (h : Fires t v a v') (hq : Single v.queue) : Single v'.queue := by
  cases h with
  | enqueue => exact single_hset hq _
  | cancel => exact single_hdel hq _
  | claim _ => exact single_hdel hq _
  | lead _ hquiet _ => exact hquiet.queue ▸ hq
  | _ => exact hq

theorem tidy_fires {a : Action} {now : Int} (h : Fires t v a v') (hq : Single v.queue)
    (hold : Tidy t rs v.seq v.jobs ms ids ps) :
    Tidy t (rs ++ v.readings ⟨a, now⟩) v'.seq v'.jobs (ms ++ v.formed ⟨a, now⟩)
      (ids ++ v.roomIds ⟨a, now⟩) (ps ++ v.pushes ⟨a, now⟩) := by
  have hi : Tidy t (rs ++ v.readings ⟨a, now⟩) v.seq v.jobs ms ids ps := hold.read
  have hquiet : v.formed ⟨a, now⟩ = [] → v.roomIds ⟨a, now⟩ = [] → v.pushes ⟨a, now⟩ = [] →
      Tidy t (rs ++ v.readings ⟨a, now⟩) v'.seq v'.jobs ms ids ps →
        Tidy t (rs ++ v.readings ⟨a, now⟩) v'.seq v'.jobs (ms ++ v.formed ⟨a, now⟩)
          (ids ++ v.roomIds ⟨a, now⟩) (ps ++ v.pushes ⟨a, now⟩) := fun h1 h2 h3 ht => by
    rw [h1, h2, h3, List.append_nil, List.append_nil, List.append_nil]
    exact ht
  have hjob : ∀ {r job}, (v.replicas r).job = job → v.jobs r = job := fun h => h
  cases h with
  | enqueue => exact hquiet rfl rfl rfl hi
  | cancel => exact hquiet rfl rfl rfl hi
  | nextMatchId =>
    rw [show v.formed ⟨.nextMatchId, now⟩ = [] from rfl, show v.pushes ⟨.nextMatchId, now⟩ = [] from rfl,
      List.append_nil, List.append_nil]
    exact hi.room
  | lead hleads hq _ =>
    have hjobs : v'.jobs = v.jobs := funext hq.job
    have ht : Tidy t (rs ++ v.readings ⟨a, now⟩) v'.seq v'.jobs ms ids ps := by
      rw [hq.seq, hjobs]
      exact hi
    cases a <;> first | exact hquiet rfl rfl rfl ht | exact Bool.noConfusion hleads
  | tick _ =>
    refine hquiet rfl rfl rfl ?_
    rw [jobs_onJob]
    exact hi.idle trivial rfl
  | read _ hperm =>
    refine hquiet rfl rfl rfl ?_
    rw [jobs_onJob]
    refine hi.idle (sound_next fun b hb => ⟨_, List.mem_append_right _ (List.mem_singleton_self _),
      formable_plan ?_ hb⟩) matchId_next
    exact (hperm.map Entry.accountId).nodup_iff.mpr hq
  | void hrun =>
    refine hquiet rfl rfl rfl ?_
    rw [jobs_onJob]
    exact hi.mint.idle trivial rfl
  | number hrun =>
    refine hquiet rfl rfl rfl ?_
    rw [jobs_onJob]
    exact hi.number (hjob hrun)
  | @claim r now' id addr e entries rest hrun =>
    have hf : v.formed ⟨.claim r, now⟩ = [⟨id, addr, now', e :: entries⟩] := by
      unfold formed
      simp only [hrun]
    rw [hf, show v.roomIds ⟨.claim r, now⟩ = [] from rfl, show v.pushes ⟨.claim r, now⟩ = [] from rfl,
      List.append_nil, List.append_nil, jobs_onJob]
    exact hi.claim (hjob hrun)
  | @push r found now' id addr mode x e entries rest hrun =>
    have hp : v.pushes ⟨.push r found, now⟩ = if found then [suss id addr mode x] else [] := by
      unfold pushes
      simp only [hrun]
    rw [hp, show v.formed ⟨.push r found, now⟩ = [] from rfl,
      show v.roomIds ⟨.push r found, now⟩ = [] from rfl, List.append_nil, List.append_nil, jobs_onJob]
    exact hi.push (hjob hrun) found
  | @last r found now' id addr mode x rest hrun =>
    have hp : v.pushes ⟨.push r found, now⟩ = if found then [suss id addr mode x] else [] := by
      unfold pushes
      simp only [hrun]
    rw [hp, show v.formed ⟨.push r found, now⟩ = [] from rfl,
      show v.roomIds ⟨.push r found, now⟩ = [] from rfl, List.append_nil, List.append_nil, jobs_onJob]
    have hlast := hi.push (hjob hrun) found
    have hrest := hlast.safe r
    rw [Function.update_self] at hrest
    have hnext : Tidy t _ v.seq (Function.update _ r (.next now' rest)) ms ids _ :=
      hlast.idle (sound_next hrest.1) matchId_next
    rwa [Function.update_idem] at hnext
  | fail =>
    refine hquiet rfl rfl rfl ?_
    rw [jobs_onJob]
    exact hi.idle trivial rfl
  | crash =>
    refine hquiet rfl rfl rfl ?_
    rw [jobs_onReplica]
    exact hi.idle trivial rfl

theorem single_of_run (h : Run (Step t) start es v) : Single v.queue :=
  run_invariant (I := fun v => Single v.queue) h (show Single [] from List.nodup_nil) fun hq hs =>
    single_fires (fires_of_step hs) hq

theorem tidy_start : Tidy t [] start.seq start.jobs [] [] [] where
  safe := fun _ => trivial
  own := fun _ _ id h => absurd h.symm (Option.some_ne_none id)
  drawn := fun _ id h => absurd h.symm (Option.some_ne_none id)
  below := fun _ h => absurd h List.not_mem_nil
  apart := List.nodup_nil
  sound := fun _ h => absurd h List.not_mem_nil
  told := fun _ h => absurd h List.not_mem_nil
  once := List.nodup_nil

theorem tidy_of_run (h : Run (Step t) start es v) : Tidy t (queueRead t es) v.seq v.jobs
    (matchesFormed t es) (roomsStarted t es) (playersTold t es) := by
  have hinv := run_history (I := fun es v => Run (Step t) start es v ∧ Tidy t (queueRead t es) v.seq
    v.jobs (matchesFormed t es) (roomsStarted t es) (playersTold t es)) h
    ⟨.start, tidy_start⟩ fun {es v e v'} ⟨hr, hi⟩ hs => ⟨hr.next hs, ?_⟩
  · exact hinv.2
  · have hrs : queueRead t (es ++ [e]) = queueRead t es ++ v.readings e := logged_snoc hr
    have hm : matchesFormed t (es ++ [e]) = matchesFormed t es ++ v.formed e := logged_snoc hr
    have hids : roomsStarted t (es ++ [e]) = roomsStarted t es ++ v.roomIds e := logged_snoc hr
    have hp : playersTold t (es ++ [e]) = playersTold t es ++ v.pushes e := logged_snoc hr
    have hq : Single v.queue := single_of_run hr
    rw [hrs, hm, hids, hp]
    exact tidy_fires (v := { v with now := e.now }) (fires_of_step hs) hq hi

-- Whatever replicas take themselves for the leader: no id twice, no match of two modes or too
-- large or early, made of the oldest of what a tick read of the queue, and each of its players is
-- told once, of the mode that he queued for.
theorem matches_sound (h : Run (Step t) start es v) :
    ((matchesFormed t es).map Match.matchId ++ roomsStarted t es).Nodup ∧
    (∀ m ∈ matchesFormed t es, m.Sound t (queueRead t es)) ∧
    (∀ p ∈ playersTold t es, ∃ m ∈ matchesFormed t es, p ∈ m.notices) ∧
    ((playersTold t es).map fun p => (p.matchId, p.targetAccountId)).Nodup :=
  have hi := tidy_of_run h
  ⟨hi.apart, hi.sound, hi.told, hi.once⟩

def request : MatchmakingStartReq := ⟨[], 15, 1, 0⟩

def queued (a : Nat) (date : Int) : Entry := ⟨a, "gw-1", request.mode, date⟩

-- The old leader's tick sleeps through the end of its lease: two matches with the same players.
def overlap : List Event :=
  takes 0 0 ++ [⟨.enqueue 7 "gw-1" request 10, 10⟩, ⟨.enqueue 8 "gw-1" request 20, 20⟩,
    ⟨.nextMatchId, 30⟩, ⟨.tick 0, 1000⟩, ⟨.read 0 [queued 7 10, queued 8 20] 1000, 1000⟩] ++
    takes 15000 1 ++ [⟨.tick 1, 16000⟩, ⟨.read 1 [queued 8 20, queued 7 10] 16000, 16000⟩,
    ⟨.number 1 "match:10100", 16000⟩, ⟨.claim 1, 16000⟩, ⟨.push 1 true, 16000⟩,
    ⟨.number 0 "match:10100", 16001⟩, ⟨.claim 0, 16001⟩, ⟨.push 0 true, 16001⟩]

theorem overlap_sound : ∃ v, Run (Step defaultTuning) start overlap v ∧
    (matchesFormed defaultTuning overlap).map Match.matchId = [2, 3] ∧
    ((matchesFormed defaultTuning overlap).map Match.matchId ++
      roomsStarted defaultTuning overlap).Nodup := by
  have hrun : ((overlap.foldlM (step defaultTuning) start).map fun v => v.seq) = some 3 := by
    decide +kernel
  obtain ⟨v, hv, -⟩ := Option.map_eq_some_iff.mp hrun
  exact ⟨v, run_of_foldlM hv, by decide +kernel, (matches_sound (run_of_foldlM hv)).1⟩

end System

end Matchmaker
