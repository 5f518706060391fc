import Madoka.Rooms.Membership
import Madoka.Rooms.Records

namespace Rooms

open Lib

structure Admission where
  accountId : Nat
  roomId : Nat
  presented : String
  code : String
  deriving DecidableEq, Repr

def admitted (s : State) : Event → List Admission
  | .next i =>
    match s.ops i with
    | some (.load (.join account req) r) =>
      match s.rooms r with
      | some room =>
        match joinBody account req (some room) with
        | .ok _ => [⟨account.uid, room.id, req.code, room.code⟩]
        | .error _ => []
      | none => []
    | _ => []
  | _ => []

def admissions (es : List Event) : List Admission := logged step admitted start es

-- A join that finds a coded room with a place for the account brings a code.
def Coded (s : State) : Event → Prop
  | .next i =>
    match s.ops i with
    | some (.load (.join account req) r) =>
      ∀ room ∈ s.rooms r, room.code ≠ "" → room.state = .waiting → account.uid ∉ room.ids →
        room.members.length < room.maxMemberNum → req.code ≠ ""
    | _ => True
  | _ => True

instance (s : State) (e : Event) : Decidable (Coded s e) := by
  unfold Coded
  split
  · split <;> infer_instance
  · infer_instance

structure Gated (log : List Admission) (s : State) : Prop where
  exact : ∀ x ∈ log, x.code ≠ "" → x.presented = x.code
  joined : ∀ r room a, s.rooms r = some room → room.code ≠ "" → a ∈ room.ids → a ≠ room.owner →
    ⟨a, room.id, room.code, room.code⟩ ∈ log

-- Whoever a step adds to a coded room is added by the write of a join that presented the code.
def Entered (s : State) (e : Event) (t : State) : Prop :=
  ∀ r room a, t.rooms r = some room → room.code ≠ "" → a ∈ room.ids → a ≠ room.owner →
    ¬ Listed s a r → ∃ i account req done todo, e = .next i ∧
      s.ops i = some (.body (.join account req) r done (.setRoom room :: todo)) ∧
      account.uid = a ∧ req.code = room.code

variable {s t : State} {e : Event} {es : List Event}

theorem presented_of_join {account : Account} {req : JoinReq} {room rec : Room} {i r : Nat}
    (hc : Coded s (.next i)) (hop : s.ops i = some (.load (.join account req) r))
    (hr : s.rooms r = some room) (h : Edit room (.join account req) rec) (hcode : room.code ≠ "") :
    req.code = room.code := by
  cases h with
  | join hw hsame hnew hfree =>
    simp only [Coded, hop] at hc
    exact hsame (hc room hr hcode hw hnew hfree) hcode

theorem admitted_exact (hc : Coded s e) {x : Admission} (hx : x ∈ admitted s e) (hcode : x.code ≠ "") :
    x.presented = x.code := by
  unfold admitted at hx
  split at hx
  · next i =>
    split at hx
    · next account req r hop =>
      split at hx
      · next room hr =>
        split at hx
        · next cmds hb =>
          obtain rfl := List.mem_singleton.mp hx
          have hcmds : ∃ rec, .setRoom rec ∈ cmds := by
            simp only [joinBody] at hb
            split_ifs at hb
            cases hb
            exact ⟨_, List.mem_cons_self⟩
          obtain ⟨rec, hrec⟩ := hcmds
          exact presented_of_join hc hop hr (@edit_of_body (.join account req) _ _ _ hb hrec) hcode
        · cases hx
      · cases hx
    · cases hx
  · cases hx

theorem admitted_of_load {account : Account} {req : JoinReq} {room : Room} {cmds : List Cmd} {i r : Nat}
    (hop : s.ops i = some (.load (.join account req) r)) (hr : s.rooms r = some room)
    (hb : joinBody account req (some room) = .ok cmds) :
    ⟨account.uid, room.id, req.code, room.code⟩ ∈ admitted s (.next i) := by
  simp only [admitted, hop, hr, hb]
  exact List.mem_singleton_self _

structure Logged (es : List Event) (s : State) : Prop where
  run : Run Step start es s
  exact : ∀ x ∈ admissions es, x.code ≠ "" → x.presented = x.code
  held : ∀ rec, Held s rec → rec.code ≠ "" → ∀ a ∈ rec.ids, a ≠ rec.owner →
    ⟨a, rec.id, rec.code, rec.code⟩ ∈ admissions es

theorem logged_start : Logged [] start :=
  ⟨.start, nofun, fun _ hrec => absurd hrec not_held_start⟩

theorem logged_step (h : Logged es s) (hs : Step s e t) (hc : Coded s e) : Logged (es ++ [e]) t := by
  have hsnoc : admissions (es ++ [e]) = admissions es ++ admitted s e := logged_snoc h.run
  refine ⟨h.run.next hs, fun x hx => ?_, fun rec hrec hcode a ha hne => ?_⟩
  · rw [hsnoc] at hx
    rcases List.mem_append.mp hx with hold | hnew
    · exact h.exact x hold
    · exact admitted_exact hc hnew
  · rw [hsnoc]
    rcases held_step hs hrec with hold | hmade
    · exact List.mem_append_left _ (h.held rec hold hcode a ha hne)
    · cases hmade with
      | created hop => exact absurd (List.mem_singleton.mp ha) hne
      | @edited i r op room rec cmds hop hr hb hin =>
        have hedit := edit_of_body hb hin
        obtain ⟨hid, howner, hsame⟩ := edit_same hedit
        rw [hid, hsame]
        rcases edit_ids hedit ha with hold | ⟨account, req, rfl, rfl⟩
        · exact List.mem_append_left _
            (h.held room (Or.inl ⟨r, hr⟩) (hsame ▸ hcode) a hold (howner ▸ hne))
        · have hmem := admitted_of_load hop hr hb
          rw [presented_of_join hc hop hr hedit (hsame ▸ hcode)] at hmem
          exact List.mem_append_right _ hmem

theorem run_logged (h : Run (Guarded Step Coded) start es s) : Logged es s :=
  run_history (I := Logged) h logged_start fun ih hs => logged_step ih hs.1 hs.2

-- What a join is going to store carries the code that it presented.
def Presents (s : State) : Prop :=
  ∀ i account req r done todo rec, s.ops i = some (.body (.join account req) r done todo) →
    .setRoom rec ∈ todo → rec.code ≠ "" → req.code = rec.code

theorem presents_step (h : Presents s) (hs : Step s e t) (hc : Coded s e) : Presents t := by
  intro i account req r done todo rec hop hrec hcode
  generalize hj : Op.join account req = op at hop
  cases begun_step hs hop with
  | same hop => exact h i account req r _ _ rec (hj ▸ hop) hrec hcode
  | wrote hop => exact h i account req r _ _ rec (hj ▸ hop) (List.mem_cons_of_mem _ hrec) hcode
  | loaded hop hb =>
    subst hj
    cases hr : s.rooms r with
    | none =>
      rw [hr] at hb
      cases hb
    | some room =>
      rw [hr] at hb
      have hedit := edit_of_body hb hrec
      have hsame := (edit_same hedit).2.2
      rw [hsame]
      exact presented_of_join hc hop hr hedit (hsame ▸ hcode)
  | created hop => cases hj

theorem run_presents (h : Run (Guarded Step Coded) start es s) : Presents s :=
  run_invariant (I := Presents) h nofun fun ih hs => presents_step ih hs.1 hs.2

theorem joins_of_body {r a : Nat} {op : Op} {done : List Cmd} {rec : Room} {todo : List Cmd}
    (h : Body s r op done (.setRoom rec :: todo)) (ha : a ∈ rec.ids) (hne : a ≠ rec.owner)
    (hnew : ¬ Listed s a r) : ∃ account req, op = .join account req ∧ account.uid = a := by
  obtain ⟨hids, -, -⟩ := at_setRoom (body_at h)
  obtain rfl := (hids a ha).resolve_left hnew
  cases h with
  | create hcmds =>
    obtain ⟨-, hc, -⟩ | ⟨-, hc, -⟩ := split_two hcmds
    · cases hc
      exact absurd (List.mem_singleton.mp ha) hne
    · cases hc
  | plan hc hs hid hv hp hr =>
    generalize hcmds : done ++ Cmd.setRoom rec :: [.setMember a r] = cmds at hp
    cases hp with
    | keep => simp at hcmds
    | edit => exact absurd (split_one hcmds).2.2 (by simp)
    | @join account req h =>
      obtain ⟨-, -, ht⟩ | ⟨-, hc', -⟩ := split_two hcmds
      · cases ht
        exact ⟨account, req, rfl, rfl⟩
      · cases hc'
    | kick =>
      obtain ⟨-, -, ht⟩ | ⟨-, hc', -⟩ := split_two hcmds
      · cases ht
      · cases hc'
    | dismiss =>
      have hmem : Cmd.setMember a r ∈ done ++ Cmd.setRoom rec :: [.setMember a r] := by simp
      rw [hcmds] at hmem
      simp at hmem
    | leave =>
      obtain ⟨-, hc', -⟩ | ⟨-, -, ht⟩ := split_two hcmds
      · cases hc'
      · cases ht

theorem entered_step (hi : Inv s) (hp : Presents s) (hs : Step s e t) : Entered s e t := by
  intro r room a hr hcode ha hne hnew
  cases moved_step hs with
  | move h => exact absurd ⟨room, h.rooms ▸ hr, ha⟩ hnew
  | expire r' => exact absurd ⟨room, hr, ha⟩ hnew
  | @write i r' op done todo c hj =>
    by_cases hsame : r = r'
    · subst hsame
      rw [rooms_wrote_self hi hj] at hr
      cases c with
      | setRoom rec =>
        obtain rfl := Option.some.inj hr
        obtain ⟨account, req, rfl, rfl⟩ := joins_of_body (hi.body i op r done _ hj) ha hne hnew
        exact ⟨i, account, req, done, todo, rfl, hj, rfl,
          hp i account req r done _ rec hj List.mem_cons_self hcode⟩
      | delRoom => cases hr
      | setMember => exact absurd ⟨room, hr, ha⟩ hnew
      | delMember => exact absurd ⟨room, hr, ha⟩ hnew
    · rw [rooms_wrote_other hi hj hsame] at hr
      exact absurd ⟨room, hr, ha⟩ hnew

theorem codes_presented (h : Run (Guarded Step Coded) start es s) :
    Gated (admissions es) s ∧
      (Run (Guarded Step Calm) start es s → ∀ e t, Step s e t → Entered s e t) := by
  have hlog := run_logged h
  refine ⟨⟨hlog.exact, fun r room a hr hcode ha hne => ?_⟩, fun hcalm e t hs => ?_⟩
  · exact hlog.held room (Or.inl ⟨r, hr⟩) hcode a ha hne
  · exact entered_step (run_inv hcalm) (run_presents h) hs

def coded (code : String) : CreateReq := { plain with code := some code }

-- The owner opens a room with a code, and a guest addresses it by its id.
def joins (code presented : String) : List Event :=
  [.call 0 (.create (guest 1) (coded code) 0), .next 0, .next 0, .next 0, .next 0,
    .call 1 (.join (guest 2) ⟨1, presented⟩), .next 1, .next 1, .next 1, .next 1, .next 1]

theorem codes_presented_by_guest : ∃ s, Run (Guarded Step Coded) start (joins "77" "77") s ∧
    (s.rooms 1).map Room.ids = some [1, 2] ∧ Gated (admissions (joins "77" "77")) s := by
  have hrun : (((joins "77" "77").foldlM (fun s e => if Coded s e then step s e else none) start).map
      fun s => (s.rooms 1).map Room.ids) = some (some [1, 2]) := by
    decide
  obtain ⟨s, hs, hids⟩ := Option.map_eq_some_iff.mp hrun
  exact ⟨s, run_of_checked hs, hids, (codes_presented (run_of_checked hs)).1⟩

theorem empty_code_admitted :
    ¬ ∀ es s, Run Step start es s → Gated (admissions es) s := by
  intro hall
  have hrun : (((joins "77" "").foldlM step start).map
      fun s => (s.rooms 1).map Room.ids) = some (some [1, 2]) := by
    decide
  have hlog : admissions (joins "77" "") = [⟨2, 1, "", "77"⟩] := by
    decide
  obtain ⟨s, hs, -⟩ := Option.map_eq_some_iff.mp hrun
  have hexact := (hall (joins "77" "") s (run_of_foldlM hs)).exact ⟨2, 1, "", "77"⟩
  rw [hlog] at hexact
  exact absurd (hexact (List.mem_singleton_self _) (by decide)) (by decide)

end Rooms
