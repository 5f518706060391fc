import Madoka.Auth.Grants
import Mathlib.Data.Fintype.EquivFin

namespace OAuth

open Lib Utf16

def Mark.tokens : Mark → List Text
  | .issued _ access refresh _ => [access, refresh]
  | .rotated _ _ body => [body.accessToken]
  | _ => []

def Event.tokens : Event → List Text
  | .login _ access tok _ => [access, tok]
  | .rotate _ access _ => [access]
  | _ => []

-- generateToken never returns what it returned before.
def Fresh (v : Server) (e : Event) : Prop := ∀ tok ∈ e.tokens, ∀ m ∈ v.log, tok ∉ m.tokens

instance (v : Server) (e : Event) : Decidable (Fresh v e) :=
  inferInstanceAs (Decidable (∀ tok ∈ e.tokens, ∀ m ∈ v.log, tok ∉ m.tokens))

def Mark.admits : Mark → Option Text
  | .answered account _ _ _ => account
  | .opened _ user _ _ => some user.openId
  | .rotated _ _ body => some body.openId
  | .gated A reached openId _ none => if A.strict reached openId then some openId else none
  | _ => none

def Mark.Accepts (k : Kind) (tok : Text) : Mark → Prop
  | .answered (some _) token _ _ => k = .access ∧ token = .text tok
  | .opened _ _ token _ => k = .refresh ∧ token = tok
  | .gated A reached openId loginToken none =>
    k = .access ∧ loginToken = tok ∧ A.strict reached openId = true
  | _ => False

def Event.LogsIn (openId : Text) : Event → Prop
  | .login o _ _ _ => o = openId
  | _ => False

def Mark.From (v : Server) (e : Event) : Mark → Prop
  | .issued o access refresh now => e = .login o access refresh now
  | .opened _ user _ _ => user ∈ v.guests ∧ user.refreshToken ≠ none
  | .rotated r now body => ∃ user access, v.requests r = some (.rotating user) ∧ e = .rotate r access now ∧
    body = Server.rotated user access now
  | .answered account _ _ _ => ∀ o, account = some o → ∃ u ∈ v.guests, u.openId = o ∧ u.accessToken ≠ none
  | .gated A reached openId _ decision => A.strict reached openId = true → decision = none →
    ∃ u ∈ v.guests, u.openId = openId ∧ u.accessToken ≠ none
  | .cleared .. => True

namespace Server

variable {v v' : Server} {m : Mark} {e : Event} {es : List Event} {r : Nat} {o : Text}

theorem present_log {route : Route} {token : Param} {now : Int} :
    (v.present r route token now).log = v.log ∨
      ∃ m, (v.present r route token now).log = v.log ++ [m] ∧ m.From v e := by
  unfold present
  split
  · rename_i user hv
    obtain ⟨tok, -, -, hmem, htok, -⟩ := validate_ok hv
    refine Or.inr ⟨_, rfl, fun o ho => ⟨user, hmem, Option.some.inj ho, ?_⟩⟩
    have htok' : user.accessToken = some tok := htok
    rw [htok']
    exact Option.some_ne_none tok
  · exact Or.inl rfl
  · exact Or.inr ⟨_, rfl, fun o ho => by cases ho⟩

theorem refresh_log {token : Param} {now : Int} :
    (v.refresh r token now).log = v.log ∨
      ∃ m, (v.refresh r token now).log = v.log ++ [m] ∧ m.From v e := by
  unfold refresh
  split
  · rename_i user hv
    obtain ⟨tok, -, -, hmem, htok, -⟩ := validate_ok hv
    refine Or.inr ⟨_, rfl, hmem, ?_⟩
    have htok' : user.refreshToken = some tok := htok
    rw [htok']
    exact Option.some_ne_none tok
  · exact Or.inl rfl
  · exact Or.inr ⟨_, rfl, fun o ho => by cases ho⟩

theorem logout_log {access refresh : Param} {now : Int} :
    (v.logout r access refresh now).log = v.log ∨
      ∃ m, (v.logout r access refresh now).log = v.log ++ [m] ∧ m.From v e := by
  unfold logout
  split
  · split
    · exact Or.inr ⟨_, rfl, fun o ho => by cases ho⟩
    · exact Or.inl rfl
  · exact Or.inr ⟨_, rfl, fun o ho => by cases ho⟩

theorem step_log (hs : v.Step e v') :
    v'.log = v.log ∨ ∃ m, v'.log = v.log ++ [m] ∧ m.From v e := by
  unfold Step step at hs
  cases e with
  | insertUser openId uid =>
    obtain ⟨g, -, rfl⟩ := Option.map_eq_some_iff.mp hs
    exact Or.inl rfl
  | renovate openId renovation =>
    cases hs
    exact Or.inl rfl
  | login openId access refresh now =>
    cases hs
    exact Or.inr ⟨_, rfl, rfl⟩
  | present r route token now =>
    dsimp only at hs
    split at hs
    · cases hs
      exact present_log
    · cases hs
  | refresh r body query now =>
    dsimp only at hs
    split at hs
    · cases hs
      exact refresh_log
    · cases hs
  | logout r access refresh now =>
    dsimp only at hs
    split at hs
    · cases hs
      exact logout_log
    · cases hs
  | clear r =>
    dsimp only at hs
    split at hs
    · cases hs
      exact Or.inr ⟨_, rfl, trivial⟩
    · cases hs
  | rotate r access now =>
    dsimp only at hs
    split at hs
    · rename_i user hr
      cases hs
      exact Or.inr ⟨_, rfl, user, access, hr, rfl, rfl⟩
    · cases hs
  | giveUp r =>
    dsimp only at hs
    split at hs
    · cases hs
      exact Or.inl rfl
    · cases hs
  | gate A reached openId loginToken =>
    cases hs
    refine Or.inr ⟨_, rfl, fun hstrict hd => ?_⟩
    obtain ⟨u, hu, ho, htok⟩ := checkRegistration_none hstrict hd
    exact ⟨u, hu, ho, by rw [htok]; exact Option.some_ne_none _⟩

theorem tokens_of_from (h : m.From v e) : ∀ tok ∈ m.tokens, tok ∈ e.tokens := by
  intro tok htok
  cases m with
  | issued o access refresh now =>
    rw [show e = .login o access refresh now from h]
    exact htok
  | rotated r now body =>
    obtain ⟨user, access, -, rfl, rfl⟩ := h
    exact htok
  | opened _ _ _ _ => cases htok
  | cleared _ _ => cases htok
  | answered _ _ _ _ => cases htok
  | gated _ _ _ _ _ => cases htok

theorem tokens_once (h : Run (Guarded Step Fresh) start es v) :
    Each (fun pre m => ∀ tok ∈ m.tokens, ∀ m' ∈ pre, tok ∉ m'.tokens) v.log := by
  refine run_invariant (I := fun v => Each (fun pre m => ∀ tok ∈ m.tokens, ∀ m' ∈ pre, tok ∉ m'.tokens)
    v.log) h each_nil fun {a e b} hi hs => ?_
  rcases step_log hs.1 with hsame | ⟨m, hm, hfrom⟩
  · rw [hsame]
    exact hi
  · rw [hm]
    exact each_snoc.mpr ⟨hi, fun tok htok => hs.2 tok (tokens_of_from hfrom tok htok)⟩

theorem held_of_accepts {k : Kind} {tok : Text} {pre : List Mark} (hj : Justified pre m)
    (ha : m.Accepts k tok) : ∃ o t, m.admits = some o ∧ Held pre k o tok t := by
  cases m with
  | answered account token now answer =>
    cases account with
    | none => exact ha.elim
    | some o =>
      obtain ⟨rfl, rfl⟩ := ha
      obtain ⟨tok', t, htok, hheld, -⟩ := Admitted.held hj
      cases htok
      exact ⟨o, t, rfl, hheld⟩
  | opened r user token now =>
    obtain ⟨rfl, rfl⟩ := ha
    obtain ⟨-, t, hheld, -⟩ := hj
    exact ⟨user.openId, t, rfl, hheld⟩
  | gated A reached openId loginToken decision =>
    cases decision with
    | some d => exact ha.elim
    | none =>
      obtain ⟨rfl, rfl, hstrict⟩ := ha
      obtain ⟨t, hheld⟩ := hj hstrict rfl
      exact ⟨openId, t, if_pos hstrict, hheld⟩
  | issued _ _ _ _ => exact ha.elim
  | rotated _ _ _ => exact ha.elim
  | cleared _ _ => exact ha.elim

theorem issues_tokens {k : Kind} {tok : Text} {t : Int} (h : m.Issues k o tok t) : tok ∈ m.tokens := by
  cases m with
  | issued o' access f now =>
    obtain ⟨-, -, rfl⟩ := h
    cases k with
    | access => exact List.mem_cons_self
    | refresh => exact List.mem_cons_of_mem _ List.mem_cons_self
  | rotated r now body =>
    obtain ⟨-, -, -, rfl⟩ := h
    exact List.mem_cons_self
  | answered _ _ _ _ => exact h.elim
  | opened _ _ _ _ => exact h.elim
  | cleared _ _ => exact h.elim
  | gated _ _ _ _ _ => exact h.elim

theorem issues_openId {k : Kind} {tok o' : Text} {t t' : Int} (h : m.Issues k o tok t)
    (h' : m.Issues k o' tok t') : o' = o := by
  cases m with
  | issued _ _ _ _ => exact h'.1.symm.trans h.1
  | rotated _ _ _ => exact h'.2.1.symm.trans h.2.1
  | answered _ _ _ _ => exact h.elim
  | opened _ _ _ _ => exact h.elim
  | cleared _ _ => exact h.elim
  | gated _ _ _ _ _ => exact h.elim

-- A token lets in the account that it was given to and nobody else, and from the moment that the
-- account's token is written anew or cleared it lets in nobody at all.
theorem dead_tokens {k : Kind} {tok : Text} {t : Int} {before after : List Mark} {x : Mark}
    (h : Run (Guarded Step Fresh) start es v) (hlog : v.log = before ++ x :: after)
    (hx : x.Issues k o tok t) :
    (∀ z ∈ v.log, z.Accepts k tok → z.admits = some o) ∧
      ∀ mid y post, after = mid ++ y :: post → y.Writes k o → ∀ z ∈ post, ¬z.Accepts k tok := by
  have honce := tokens_once h
  have hjust := (run_invariant (guarded_run h) sound_start sound_step).log
  have hxtok := issues_tokens hx
  -- only `x` gives the token
  have hsole : ∀ o' t', ∀ w ∈ v.log, w.Issues k o' tok t' → w = x := by
    intro o' t' w hw hissue
    rw [hlog] at hw
    rcases List.mem_append.mp hw with hw | hw
    · exact absurd (issues_tokens hissue) (honce before x after hlog tok hxtok w hw)
    · rcases List.mem_cons.mp hw with hw | hw
      · exact hw
      · obtain ⟨a, b, rfl⟩ := List.append_of_mem hw
        exact absurd hxtok (honce (before ++ x :: a) w b (by rw [hlog]; simp) tok (issues_tokens hissue) x
          (List.mem_append_right before List.mem_cons_self))
  have hheld : ∀ pre z post, v.log = pre ++ z :: post → z.Accepts k tok →
      z.admits = some o ∧ ∃ t, Held pre k o tok t := by
    intro pre z post hz ha
    obtain ⟨o', t', hadm, hlast⟩ := held_of_accepts (hjust pre z post hz) ha
    obtain ⟨w, hw, hissue⟩ := hlast.mem
    obtain rfl := hsole o' t' w (by rw [hz]; exact List.mem_append_left _ hw) hissue
    obtain rfl := issues_openId hx hissue
    exact ⟨hadm, t', hlast⟩
  refine ⟨fun z hz ha => ?_, fun mid y post hafter hy z hz ha => ?_⟩
  · obtain ⟨pre, post, hsplit⟩ := List.append_of_mem hz
    exact (hheld pre z post hsplit ha).1
  · obtain ⟨a, b, rfl⟩ := List.append_of_mem hz
    subst hafter
    have hsplit : v.log = ((before ++ x :: mid) ++ y :: a) ++ z :: b := by
      rw [hlog]
      simp
    obtain ⟨-, t', hlast⟩ := hheld _ z b hsplit ha
    -- behind `x` nothing gives the token
    have hlater : ∀ w ∈ mid ++ y :: a, ¬w.Issues k o tok t' := by
      intro w hw hissue
      obtain ⟨c, d, hcd⟩ := List.append_of_mem hw
      have hwsplit : v.log = (before ++ x :: c) ++ w :: (d ++ z :: b) := by
        have hgroup : v.log = before ++ x :: ((mid ++ y :: a) ++ z :: b) := by
          rw [hlog]
          simp
        rw [hgroup, hcd]
        simp
      exact honce _ w _ hwsplit tok (issues_tokens hissue) x
        (List.mem_append_right before List.mem_cons_self) hxtok
    exact Latest.none_behind hy (fun w hw => hlater w (List.mem_append_right mid (List.mem_cons_of_mem y hw)))
      (hlater y (List.mem_append_right mid List.mem_cons_self)) hlast

def visited : List Mark :=
  [.answered (some (text "42")) (.text (text "a")) 200
      (.inspected ⟨some 1296100, 10000001, text "42", some 100⟩),
    .opened 1 ⟨text "42", 10000001, some (text "a"), some (text "r"), some 1296100, some 2592100,
      some 100, false⟩ (text "r") 300]

def renewal : Refreshed := ⟨text "b", 1296300, text "42", some (text "r"), some 2592100, 10000001⟩

-- The token that was refreshed is not accepted any more.
theorem visit_dead : ∃ v post, Run (Guarded Step Fresh) start visit v ∧
    v.log = .issued (text "42") (text "a") (text "r") 100 :: (visited ++ .rotated 1 300 renewal :: post) ∧
    post.length = 3 ∧ ∀ z ∈ post, ¬z.Accepts .access (text "a") := by
  have hrun : (visit.foldlM (fun v e => if Fresh v e then step v e else none) start).map
      (fun v => (v.log.take 4, v.log.length)) = some
        (.issued (text "42") (text "a") (text "r") 100 :: (visited ++ [.rotated 1 300 renewal]), 7) := by
    decide +kernel
  obtain ⟨v, hv, hmarks⟩ := Option.map_eq_some_iff.mp hrun
  obtain ⟨htake, hlen⟩ := Prod.mk.inj hmarks
  have h := run_of_checked hv
  have hlog : v.log = [] ++ .issued (text "42") (text "a") (text "r") 100 ::
      (visited ++ .rotated 1 300 renewal :: v.log.drop 4) := by
    have hsplit := List.take_append_drop 4 v.log
    rw [htake] at hsplit
    rw [← hsplit]
    rfl
  have hx : Mark.Issues .access (text "42") (text "a") 100
      (.issued (text "42") (text "a") (text "r") 100) := ⟨rfl, rfl, rfl⟩
  exact ⟨v, v.log.drop 4, h, hlog, by rw [List.length_drop, hlen],
    (dead_tokens h hlog hx).2 visited _ _ rfl ⟨rfl, rfl⟩⟩

section Logout

def Bare (o : Text) (guests : List User) : Prop :=
  ∀ u ∈ guests, u.openId = o → u.accessToken = none ∧ u.refreshToken = none

structure Out (o : Text) (v : Server) : Prop where
  bare : Bare o v.guests
  rotating : ∀ r user, v.requests r = some (.rotating user) → user.openId ≠ o

theorem not_admits_of_from (h : Out o v) (hf : m.From v e) : m.admits ≠ some o := by
  cases m with
  | answered account token now answer =>
    intro ha
    obtain ⟨u, hu, ho, htok⟩ := hf o ha
    exact htok (h.bare u hu ho).1
  | opened r user token now =>
    intro ha
    exact hf.2 (h.bare user hf.1 (Option.some.inj ha)).2
  | rotated r now body =>
    obtain ⟨user, access, hr, -, rfl⟩ := hf
    exact fun ha => h.rotating r user hr (Option.some.inj ha)
  | gated A reached openId loginToken decision =>
    cases decision with
    | some d => exact fun ha => by cases ha
    | none =>
      change (if A.strict reached openId = true then some openId else none) ≠ some o
      split
      · rename_i hstrict
        intro ha
        obtain ⟨u, hu, ho, htok⟩ := hf hstrict rfl
        exact htok (h.bare u hu (ho.trans (Option.some.inj ha))).1
      · exact fun ha => by cases ha
  | issued _ _ _ _ => exact fun ha => by cases ha
  | cleared _ _ => exact fun ha => by cases ha

theorem bare_updateGuest {guests : List User} {openId : Text} {f : User → User} (h : Bare o guests)
    (hf : ∀ u, (f u).openId = u.openId)
    (hp : ∀ u, u.openId = openId → openId = o → u.accessToken = none ∧ u.refreshToken = none →
      (f u).accessToken = none ∧ (f u).refreshToken = none) : Bare o (updateGuest guests openId f) := by
  intro u hu ho
  rcases mem_updateGuest hu with ⟨hmem, -⟩ | ⟨x, hx, hid, rfl⟩
  · exact h u hmem ho
  · have hxo : x.openId = o := (hf x).symm.trans ho
    exact hp x hid (hid.symm.trans hxo) (h x hx hxo)

theorem Out.wait {stage : Option Stage} (h : Out o v)
    (hs : ∀ user, stage = some (.rotating user) → user.openId ≠ o) : Out o (v.wait r stage) := by
  refine ⟨h.bare, fun r' user hr' => ?_⟩
  have hr'' : Function.update v.requests r stage r' = some (.rotating user) := hr'
  by_cases hr : r' = r
  · subst hr
    rw [Function.update_self] at hr''
    exact hs user hr''
  · rw [Function.update_of_ne hr] at hr''
    exact h.rotating r' user hr''

theorem Out.tell (h : Out o v) : Out o (v.tell m) := ⟨h.bare, h.rotating⟩

theorem Out.guests {guests : List User} (h : Out o v) (hg : Bare o guests) :
    Out o { v with guests := guests } := ⟨hg, h.rotating⟩

theorem out_step (h : Out o v) (hs : v.Step e v') (he : ¬e.LogsIn o) : Out o v' := by
  unfold Step step at hs
  cases e with
  | insertUser openId uid =>
    obtain ⟨g, hg, rfl⟩ := Option.map_eq_some_iff.mp hs
    refine h.guests fun u hu ho => ?_
    unfold OAuth.insertUser at hg
    split at hg
    · cases hg
    · cases hg
      rcases List.mem_append.mp hu with hu | hu
      · exact h.bare u hu ho
      · rw [List.mem_singleton.mp hu]
        exact ⟨rfl, rfl⟩
  | renovate openId renovation =>
    cases hs
    exact h.guests (bare_updateGuest h.bare (fun _ => rfl) fun u _ _ hu => hu)
  | login openId access refresh now =>
    cases hs
    have hg : Bare o (setTokens v.guests openId (issueTokens access refresh now)) :=
      bare_updateGuest h.bare (fun _ => rfl) fun u _ ho _ => absurd ho he
    exact (h.guests hg).tell
  | present r route token now =>
    dsimp only at hs
    split at hs
    · cases hs
      unfold present
      split
      · exact h.tell
      · exact h.wait fun user heq => by cases heq
      · exact h.tell
    · cases hs
  | refresh r body query now =>
    dsimp only at hs
    split at hs
    · cases hs
      unfold refresh
      split
      · rename_i user hv
        obtain ⟨tok, -, -, hmem, htok, -⟩ := validate_ok hv
        refine (h.wait fun user' heq => ?_).tell
        cases heq
        intro ho
        have hnone : user.token .refresh = none := (h.bare user hmem ho).2
        rw [hnone] at htok
        cases htok
      · exact h.wait fun user heq => by cases heq
      · exact h.tell
    · cases hs
  | logout r access refresh now =>
    dsimp only at hs
    split at hs
    · cases hs
      unfold logout
      split
      · split
        · exact h.tell
        · exact h.wait fun user heq => by cases heq
      · exact h.tell
    · cases hs
  | clear r =>
    dsimp only at hs
    split at hs
    · rename_i openId answer hr
      cases hs
      have hg : Bare o (clearTokens v.guests openId) :=
        bare_updateGuest h.bare (fun _ => rfl) fun u _ _ _ => ⟨rfl, rfl⟩
      exact ((h.guests hg).wait fun user heq => by cases heq).tell
    · cases hs
  | rotate r access now =>
    dsimp only at hs
    split at hs
    · rename_i user hr
      cases hs
      have hg : Bare o (refreshAccessToken v.guests user.openId access (rotated user access now).expiryTime) :=
        bare_updateGuest h.bare (fun _ => rfl) fun u _ ho _ => absurd ho (h.rotating r user hr)
      exact ((h.guests hg).wait fun user heq => by cases heq).tell
    · cases hs
  | giveUp r =>
    dsimp only at hs
    split at hs
    · cases hs
      exact h.wait fun user heq => by cases heq
    · cases hs
  | gate A reached openId loginToken =>
    cases hs
    exact h.tell

-- As long as the account does not log in, nothing behind `log` lets it in.
structure Shut (o : Text) (log : List Mark) (v : Server) : Prop where
  out : Out o v
  marks : ∃ post, v.log = log ++ post ∧ ∀ m ∈ post, m.admits ≠ some o

theorem shut_run (h : Run Step v es v') (ho : Out o v) (he : ∀ e ∈ es, ¬e.LogsIn o) : Shut o v.log v' := by
  refine run_history (I := fun es v' => (∀ e ∈ es, ¬e.LogsIn o) → Shut o v.log v') h
    (fun _ => ⟨ho, [], by simp, by simp⟩) ?_ he
  intro es a e b hi hs he
  obtain ⟨hout, post, hpost, hno⟩ := hi fun x hx => he x (List.mem_append_left _ hx)
  refine ⟨out_step hout hs (he e (by simp)), ?_⟩
  rcases step_log hs with hsame | ⟨m, hm, hfrom⟩
  · exact ⟨post, hsame.trans hpost, hno⟩
  · refine ⟨post ++ [m], by rw [hm, hpost, List.append_assoc], fun x hx => ?_⟩
    rcases List.mem_append.mp hx with hx | hx
    · exact hno x hx
    · rw [List.mem_singleton.mp hx]
      exact not_admits_of_from hout hfrom

theorem exists_unused (guests : List User) : ∃ tok : Text, tok ≠ [] ∧ ∀ u ∈ guests, u.accessToken ≠ some tok := by
  obtain ⟨tok, htok⟩ := Infinite.exists_notMem_finset ([] :: guests.filterMap User.accessToken).toFinset
  rw [List.mem_toFinset, List.mem_cons, not_or] at htok
  exact ⟨tok, htok.1, fun u hu hu' => htok.2 (List.mem_filterMap.mpr ⟨u, hu, hu'⟩)⟩

theorem validate_rotated {guests : List User} {tok : Text} (now : Int) (ho : ∃ u ∈ guests, u.openId = o)
    (htok : tok ≠ []) (hnew : ∀ u ∈ guests, u.accessToken ≠ some tok) :
    ∃ user, user.openId = o ∧ validate (updateGuest (refreshAccessToken guests o tok (now + ACCESS_TTL_SECONDS))
      o fun u => { u with renovation := false }) .access (.text tok) now = .ok user := by
  generalize hrows : updateGuest (refreshAccessToken guests o tok (now + ACCESS_TTL_SECONDS)) o
    (fun u => { u with renovation := false }) = rows
  have hrow : ∀ u ∈ rows, u.accessToken = some tok → u.openId = o ∧ u.renovation = false ∧
      u.accessExpiry = some (now + ACCESS_TTL_SECONDS) := by
    intro u hu hut
    rw [← hrows] at hu
    rcases mem_updateGuest hu with ⟨hmem, hne⟩ | ⟨x, hx, hxo, rfl⟩
    · rcases mem_updateGuest hmem with ⟨hold, -⟩ | ⟨y, -, hy, rfl⟩
      · exact absurd hut (hnew u hold)
      · exact absurd hy hne
    · rcases mem_updateGuest hx with ⟨-, hne⟩ | ⟨y, -, -, rfl⟩
      · exact absurd hxo hne
      · exact ⟨hxo, rfl, rfl⟩
  have hfound : (findByToken rows .access tok).isSome = true := by
    obtain ⟨u, hu, huo⟩ := ho
    have hempty : tok.isEmpty = false := by simpa using htok
    unfold findByToken
    rw [hempty, if_neg Bool.false_ne_true, List.find?_isSome]
    have hwritten : { u with accessToken := some tok, accessExpiry := some (now + ACCESS_TTL_SECONDS) } ∈
        refreshAccessToken guests o tok (now + ACCESS_TTL_SECONDS) := updateGuest_mem hu huo
    have hrow' := updateGuest_mem (f := fun u => { u with renovation := false }) hwritten huo
    rw [hrows] at hrow'
    exact ⟨_, hrow', by simp [User.token]⟩
  obtain ⟨user, huser⟩ := Option.isSome_iff_exists.mp hfound
  obtain ⟨hmem, hut⟩ := findByToken_spec huser
  obtain ⟨huo, hren, hexp⟩ := hrow user hmem hut
  refine ⟨user, huo, ?_⟩
  obtain ⟨c, t, rfl⟩ := List.exists_cons_of_ne_nil htok
  have hexp' : user.expiry .access = some (now + ACCESS_TTL_SECONDS) := hexp
  have hlive : ¬now > now + ACCESS_TTL_SECONDS := by
    unfold ACCESS_TTL_SECONDS
    omega
  simp only [validate, huser, hren, hexp', hlive, Bool.false_eq_true, if_false]

theorem step_clear {answer : Answer} (hr : v.requests r = some (.clearing o answer)) : v.step (.clear r) =
    some (({ v with guests := clearTokens v.guests o }.wait r none).tell (.cleared o answer)) := by
  simp only [step, hr]

theorem rotated_accepted {user : User} (hr : v.requests r = some (.rotating user))
    (ho : ∃ u ∈ v.guests, u.openId = user.openId) : ∃ es w m tok, Run Step v es w ∧
      (∀ e ∈ es, ¬e.LogsIn user.openId) ∧ m ∈ w.log.drop v.log.length ∧ m.Accepts .access tok ∧
        m.admits = some user.openId := by
  obtain ⟨tok, htok, hnew⟩ := exists_unused v.guests
  obtain ⟨found, hfo, hvalid⟩ := validate_rotated 0 ho htok hnew
  generalize hv1 : (Server.wait ⟨refreshAccessToken v.guests user.openId tok (rotated user tok 0).expiryTime,
    v.requests, v.log⟩ r none).tell (.rotated r 0 (rotated user tok 0)) = v1
  have h1 : v.Step (.rotate r tok 0) v1 := by
    rw [← hv1]
    simp only [Step, step, hr]
  generalize hv2 : Server.mk (updateGuest v1.guests user.openId fun u => { u with renovation := false })
    v1.requests v1.log = v2
  have h2 : v1.Step (.renovate user.openId false) v2 := by
    rw [← hv2]
    rfl
  have hidle : v2.requests r = none := by
    rw [← hv2, ← hv1]
    exact Function.update_self ..
  have hvalid2 : validate v2.guests .access (.text tok) 0 = .ok found := by
    rw [← hv2, ← hv1]
    exact hvalid
  have h3 : v2.Step (.present r .withUser (.text tok) 0)
      (v2.tell (.answered (some found.openId) (.text tok) 0 (.next found))) := by
    simp only [Step, step, hidle, present, hvalid2]
    rfl
  refine ⟨_, _, .answered (some found.openId) (.text tok) 0 (.next found), tok,
    ((run_single h1).next h2).next h3, ?_, ?_, ⟨rfl, rfl⟩, congrArg some hfo⟩
  · intro e he
    simp only [List.cons_append, List.nil_append, List.mem_cons, List.not_mem_nil, or_false] at he
    rcases he with rfl | rfl | rfl <;> exact id
  · rw [← hv2, ← hv1]
    simp [tell, wait]

-- A logout ends the account's access for good, unless a refresh of it is under way: that one then
-- writes an access token that is accepted.
theorem logout_race {answer : Answer} (hr : v.requests r = some (.clearing o answer))
    (hs : v.Step (.clear r) v') (ho : ∃ u ∈ v.guests, u.openId = o) :
    ((∀ r user, v.requests r = some (.rotating user) → user.openId ≠ o) →
      ∀ es w, Run Step v' es w → (∀ e ∈ es, ¬e.LogsIn o) →
        ∃ post, w.log = v'.log ++ post ∧ ∀ m ∈ post, m.admits ≠ some o) ∧
    ((∃ r user, v.requests r = some (.rotating user) ∧ user.openId = o) →
      ∃ es w m tok, Run Step v' es w ∧ (∀ e ∈ es, ¬e.LogsIn o) ∧ m ∈ w.log.drop v'.log.length ∧
        m.Accepts .access tok ∧ m.admits = some o) := by
  unfold Step at hs
  rw [step_clear hr] at hs
  cases hs
  have hother : ∀ r' user, v.requests r' = some (.rotating user) →
      Function.update v.requests r none r' = some (.rotating user) := by
    intro r' user hr'
    have hne : r' ≠ r := by
      rintro rfl
      rw [hr] at hr'
      cases hr'
    rw [Function.update_of_ne hne, hr']
  constructor
  · intro hnone es w hrun he
    have hbare : Bare o (clearTokens v.guests o) := by
      intro u hu huo
      rcases mem_updateGuest hu with ⟨-, hne⟩ | ⟨x, -, -, rfl⟩
      · exact absurd huo hne
      · exact ⟨rfl, rfl⟩
    exact (shut_run hrun ⟨hbare, fun r' user hr' => hnone r' user (waiting_none hr').2⟩ he).marks
  · rintro ⟨r', user, hr', rfl⟩
    obtain ⟨u, hu, huo⟩ := ho
    exact rotated_accepted (hother r' user hr') ⟨_, updateGuest_mem hu huo, huo⟩

-- A refresh is under way when the player logs out.
def parting : List Event :=
  [.insertUser (text "42") 10000001, .login (text "42") (text "a") (text "r") 100,
    .refresh 1 (.text (text "r")) .absent 200, .logout 0 (.text (text "a")) (.text (text "r")) 200]

theorem parting_race : ∃ v v', Run Step start parting v ∧ v.Step (.clear 0) v' ∧
    ∃ es w m tok, Run Step v' es w ∧ (∀ e ∈ es, ¬e.LogsIn (text "42")) ∧
      m ∈ w.log.drop v'.log.length ∧ m.Accepts .access tok ∧ m.admits = some (text "42") := by
  have hrun : (parting.foldlM step start).map (fun v => (v.requests 0, v.requests 1, v.guests)) =
      some (some (.clearing (text "42") .result),
        some (.rotating ⟨text "42", 10000001, some (text "a"), some (text "r"), some 1296100,
          some 2592100, some 100, false⟩),
        [⟨text "42", 10000001, some (text "a"), some (text "r"), some 1296100, some 2592100, some 100,
          false⟩]) := by
    decide +kernel
  obtain ⟨v, hv, hseen⟩ := Option.map_eq_some_iff.mp hrun
  obtain ⟨h0, hrest⟩ := Prod.mk.inj hseen
  obtain ⟨h1, hguests⟩ := Prod.mk.inj hrest
  have ho : ∃ u ∈ v.guests, u.openId = text "42" := by
    rw [hguests]
    exact ⟨_, List.mem_cons_self, rfl⟩
  exact ⟨v, _, run_of_foldlM hv, step_clear h0, (logout_race h0 (step_clear h0) ho).2 ⟨1, _, h1, rfl⟩⟩

end Logout

end Server

end OAuth
