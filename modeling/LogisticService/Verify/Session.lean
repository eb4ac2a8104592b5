import LogisticService.Client.Menu
import LogisticService.Effects.Runs

/-!
# The client's session

The session lives in two places: `is_logged_in` in the menus and `auth_proxy`.
Over any sequence of logins and logouts, with any typed lines, table contents
and database failures, the two agree, and the proxy holds the row that the last
completed login selected (`session_consistent`). The columns are read as C
strings: what a column holds behind a NUL neither reaches the proxy nor is
compared (`session_ends_at_nul`).
-/

namespace LogisticService

open Effects CLib Program

inductive Command
  | login
  | logout
deriving DecidableEq

/-- One call, with the surroundings it meets. -/
structure Call (Table : Type) where
  command : Command
  world : Surroundings Table

section

variable {Table : Type}

/-- The email and the password a login reads, unless the input ends before. -/
def linesRead (stdin : List Byte) : Option (CString × CString) :=
  match fgets BUFFER_PASS_USER stdin with
  | none => none
  | some (email, rest) =>
    match fgets BUFFER_PASS_USER rest with
    | none => none
    | some (password, _) => some (lineOf email, lineOf password)

/-- A login that has read both lines, and what it read. -/
def Call.completed (c : Call Table) : Option (Surroundings Table × CString × CString) :=
  match c.command with
  | .login => (linesRead c.world.stdin).map fun lines => (c.world, lines)
  | .logout => none

/-- The last completed login. -/
def lastCompleted (calls : List (Call Table)) : Option (Surroundings Table × CString × CString) :=
  (calls.filterMap Call.completed).getLast?

theorem lastCompleted_of_none {calls : List (Call Table)} {c : Call Table}
    (h : c.completed = none) : lastCompleted (calls ++ [c]) = lastCompleted calls := by
  unfold lastCompleted
  rw [List.filterMap_append, List.filterMap_cons_none h, List.filterMap_nil, List.append_nil]

theorem lastCompleted_of_some {calls : List (Call Table)} {c : Call Table}
    {last : Surroundings Table × CString × CString} (h : c.completed = some last) :
    lastCompleted (calls ++ [c]) = some last := by
  unfold lastCompleted
  rw [List.filterMap_append, List.filterMap_cons_some h, List.filterMap_nil,
    List.getLast?_concat]

/-! ## What the calls do -/

variable (select : Table → CString → Option UserRow) (crypt : CString → String → Option CString)

/-- A call made with these globals; no state is left when it does not return. -/
def Globals.call (g : Globals) (c : Call Table) : Option Globals :=
  let program := match c.command with
    | .login => login g
    | .logout => logout g
  match (program.run (respond select crypt) c.world).1 with
  | .ok g' => some g'
  | .error _ => none

/-- The row is the one a login with these credentials is let in by. -/
structure LetIn (users : Table) (email password : CString) (row : UserRow) : Prop where
  selected : select users email = some row
  hashed : crypt password authSalt = some (.ofBytes row.password)

variable {select crypt}

/-- A buffer holds the same string as the column. -/
theorem ofBytes_fetched (size : Nat) (value : List Byte) :
    CString.ofBytes (fetched size value) = CString.ofBytes value := by
  unfold fetched
  by_cases h : value.length < size
  · rw [if_pos h, CString.ofBytes_append_nul]
  · rw [if_neg h]

theorem accept_user (proxy : AuthProxy) (row : UserRow) :
    (proxy.accept row).authenticatedUser.text = (CString.ofBytes row.name).take 99 := by
  rw [← ofBytes_fetched PROXY_MAX_NAME_LENGTH]
  exact CharArray.text_strncpy (n := 99) _ _

theorem accept_role (proxy : AuthProxy) (row : UserRow) :
    (proxy.accept row).authenticatedRole.text = (CString.ofBytes row.role).take 49 := by
  rw [← ofBytes_fetched PROXY_MAX_ROLE_LENGTH]
  exact CharArray.text_strncpy (n := 49) _ _

/-! ## What authentication does -/

/-- What a login asks of the database and of `crypt`. -/
def ConsoleOperation.OfLogin : ConsoleOperation → Prop
  | .db _ | .stmtFetch _ | .crypt _ _ => True
  | _ => False

theorem authenticate_only (proxy : AuthProxy) (email password : CString) :
    (authenticate proxy email password).Only ConsoleOperation.OfLogin := by
  have hreturn : ∀ result : Bool × AuthProxy,
      (.pure result : Interact _).Only ConsoleOperation.OfLogin := fun _ => trivial
  have horFail : ∀ (call : DbCall) (next : Interact (Bool × AuthProxy)),
      next.Only ConsoleOperation.OfLogin →
        (orFail call proxy next).Only ConsoleOperation.OfLogin := by
    intro call next hnext
    refine ⟨trivial, fun ok => ?_⟩
    cases ok with
    | false => exact hreturn _
    | true => exact hnext
  have hcheck : (checkPassword proxy email password).Only ConsoleOperation.OfLogin := by
    refine ⟨trivial, fun found => ?_⟩
    cases found with
    | none => exact hreturn _
    | some row =>
      show @Program.Only Console Stop _ _ (if row.truncated then _ else _)
      by_cases htruncated : row.truncated
      · rw [if_pos htruncated]
        exact hreturn _
      · rw [if_neg htruncated]
        refine ⟨trivial, fun hashed => ?_⟩
        cases hashed with
        | none => trivial
        | some hashed =>
          dsimp only [Program.bind]
          cases strcmp hashed.bytes (fetched PROXY_MAX_PASSWORD_LENGTH row.password) with
          | none => trivial
          | some same => cases same <;> exact hreturn _
  exact horFail _ _ (horFail _ _ (horFail _ _ (horFail _ _ (horFail _ _ (horFail _ _ hcheck)))))

section Ends

variable {α β : Type} {w : Surroundings Table}

/-- What follows an operation, from its answer on. -/
theorem ends_consult {o : ConsoleOperation} {f : o.Reply → Interact α}
    {Q : α → Surroundings Table → Prop}
    (h : (f (respond select crypt w o).1).Ends (respond select crypt)
      (respond select crypt w o).2 Q) :
    (consult o >>= f).Ends (respond select crypt) w Q := h

theorem ends_throw {e : Stop} {Q : α → Surroundings Table → Prop} :
    (.throw e : Interact α).Ends (respond select crypt) w Q := by
  intro a w' hrun
  cases hrun

end Ends

variable (select crypt) in
/-- What `authenticate` returns: the proxy as it was, or the proxy of a row that
the credentials let in. -/
def Authenticated (proxy : AuthProxy) (w : Surroundings Table) (email password : CString)
    (result : Bool × AuthProxy) : Prop :=
  result = (false, proxy) ∨
    ∃ row, LetIn select crypt w.users email password row ∧ result = (true, proxy.accept row)

variable {w : Surroundings Table} {proxy : AuthProxy} {email password : CString}

theorem refuses : (.pure (false, proxy) : Interact (Bool × AuthProxy)).Ends (respond select crypt) w
    fun result _ => Authenticated select crypt proxy w email password result :=
  Ends.pure (.inl rfl)

theorem checkPassword_ends : (checkPassword proxy email password).Ends (respond select crypt) w
    fun result _ => Authenticated select crypt proxy w email password result := by
  unfold checkPassword
  refine ends_consult ?_
  have hanswer : (respond select crypt w (.stmtFetch email)) =
      (if w.fetches then select w.users email else none, w) := rfl
  rw [hanswer]
  cases hfound : (if w.fetches then select w.users email else none) with
  | none => exact refuses
  | some row =>
    have hselected : select w.users email = some row := by
      by_cases hfetches : w.fetches
      · rwa [if_pos hfetches] at hfound
      · rw [if_neg hfetches] at hfound
        cases hfound
    dsimp only
    by_cases htruncated : row.truncated
    · rw [if_pos htruncated]
      exact refuses
    · rw [if_neg htruncated]
      refine ends_consult ?_
      have hcrypt : (respond select crypt w (.crypt password authSalt)) =
          (crypt password authSalt, w) := rfl
      rw [hcrypt]
      cases hhashed : crypt password authSalt with
      | none => exact ends_throw
      | some hashed =>
        dsimp only
        cases hsame : strcmp hashed.bytes (fetched PROXY_MAX_PASSWORD_LENGTH row.password) with
        | none => exact ends_throw
        | some same =>
          cases same with
          | false => exact refuses
          | true =>
            have hstored : CString.ofBytes row.password = hashed := by
              rw [← ofBytes_fetched PROXY_MAX_PASSWORD_LENGTH]
              exact strcmp_true hsame
            exact Ends.pure (.inr ⟨row, ⟨hselected, hstored ▸ hhashed⟩, rfl⟩)

/-- A database call before the rest: when it fails, nobody is let in. -/
theorem orFail_ends {call : DbCall} {next : Interact (Bool × AuthProxy)}
    (h : next.Ends (respond select crypt) w
      fun result _ => Authenticated select crypt proxy w email password result) :
    (orFail call proxy next).Ends (respond select crypt) w
      fun result _ => Authenticated select crypt proxy w email password result := by
  unfold orFail
  refine ends_consult ?_
  have hanswer : (respond select crypt w (.db call)) = (w.succeeds call, w) := rfl
  rw [hanswer]
  cases w.succeeds call with
  | false => exact refuses
  | true => exact h

theorem authenticate_ends : (authenticate proxy email password).Ends (respond select crypt) w
    fun result _ => Authenticated select crypt proxy w email password result :=
  orFail_ends (orFail_ends (orFail_ends (orFail_ends (orFail_ends (orFail_ends
    checkPassword_ends)))))

variable (select crypt) in
/-- What a login leaves: the session as it was when the input ended, else a new
one, of nobody or of the row the lines let in. -/
def LoggedIn (g : Globals) (w : Surroundings Table) (g' : Globals) : Prop :=
  match linesRead w.stdin with
  | none => g' = g
  | some (email, password) =>
    g' = { g with isLoggedIn := false, authProxy := .zero } ∨
      ∃ row, LetIn select crypt w.users email password row ∧
        g' = { g with isLoggedIn := true, authProxy := AuthProxy.zero.accept row }

/-- A line at the end of standard input. -/
theorem respond_fgets_none {prompt : Prompt} (h : fgets prompt.size w.stdin = none) :
    respond select crypt w (.fgets prompt) = (none, w) := by
  show (match fgets prompt.size w.stdin with | none => _ | some (line, rest) => _) = _
  rw [h]
  rfl

/-- A line of standard input. -/
theorem respond_fgets_some {prompt : Prompt} {line rest : List Byte}
    (h : fgets prompt.size w.stdin = some (line, rest)) :
    respond select crypt w (.fgets prompt) = (some line, { w with stdin := rest }) := by
  show (match fgets prompt.size w.stdin with | none => _ | some (line, rest) => _) = _
  rw [h]
  rfl

theorem login_ends {g : Globals} : (login g).Ends (respond select crypt) w
    fun g' _ => LoggedIn select crypt g w g' := by
  unfold login LoggedIn linesRead
  refine ends_consult ?_
  cases hemail : fgets BUFFER_PASS_USER w.stdin with
  | none =>
    have hanswer : respond select crypt w (.fgets .email) = (none, w) := respond_fgets_none hemail
    rw [hanswer]
    exact Ends.pure rfl
  | some read =>
    obtain ⟨email, rest⟩ := read
    have hanswer : respond select crypt w (.fgets .email) =
        (some email, { w with stdin := rest }) :=
      respond_fgets_some hemail
    rw [hanswer]
    refine ends_consult ?_
    dsimp only
    cases hpassword : fgets BUFFER_PASS_USER rest with
    | none =>
      have hanswer : respond select crypt { w with stdin := rest } (.fgets .password) = (none, _) :=
        respond_fgets_none hpassword
      rw [hanswer]
      exact Ends.pure rfl
    | some read =>
      obtain ⟨password, rest'⟩ := read
      have hanswer : respond select crypt { w with stdin := rest } (.fgets .password) =
          (some password, { w with stdin := rest' }) := respond_fgets_some hpassword
      rw [hanswer]
      refine Ends.bind authenticate_ends fun result w' hresult => ?_
      rcases hresult with rfl | ⟨row, hrow, rfl⟩
      · exact ends_consult (Ends.pure (.inl rfl))
      · exact ends_consult (Ends.pure (.inr ⟨row, hrow, rfl⟩))

/-! ## Every call returns -/

/-- Hashes fit the buffer of the stored password. -/
def HashesFit (crypt : CString → String → Option CString) : Prop :=
  ∀ password, ∃ hashed, crypt password authSalt = some hashed ∧
    hashed.bytes.length < PROXY_MAX_PASSWORD_LENGTH

theorem finishes_consult {α : Type} {o : ConsoleOperation} {f : o.Reply → Interact α}
    (h : (f (respond select crypt w o).1).Finishes (respond select crypt)
      (respond select crypt w o).2) : (consult o >>= f).Finishes (respond select crypt) w := h

theorem checkPassword_finishes (hfit : HashesFit crypt) :
    (checkPassword proxy email password).Finishes (respond select crypt) w := by
  unfold checkPassword
  refine finishes_consult ?_
  generalize hanswer : respond select crypt w (.stmtFetch email) = reply
  obtain ⟨found, w'⟩ := reply
  cases found with
  | none => exact Finishes.pure _
  | some row =>
    dsimp only
    by_cases htruncated : row.truncated
    · rw [if_pos htruncated]
      exact Finishes.pure _
    · rw [if_neg htruncated]
      obtain ⟨hashed, hhashed, hlength⟩ := hfit password
      have hcrypt : respond select crypt w' (.crypt password authSalt) = (some hashed, w') := by
        rw [← hhashed]
        rfl
      have hbuffer : 0 ∈ fetched PROXY_MAX_PASSWORD_LENGTH row.password ∨
          hashed.bytes.length < (fetched PROXY_MAX_PASSWORD_LENGTH row.password).length := by
        unfold fetched
        by_cases hroom : row.password.length < PROXY_MAX_PASSWORD_LENGTH
        · rw [if_pos hroom]
          exact .inl (List.mem_append_right _ List.mem_cons_self)
        · rw [if_neg hroom]
          exact .inr (by omega)
      obtain ⟨same, hsame⟩ := strcmp_defined hbuffer
      refine finishes_consult ?_
      rw [hcrypt]
      dsimp only
      rw [hsame]
      cases same with
      | false => exact Finishes.pure _
      | true => exact Finishes.pure _

theorem orFail_finishes {call : DbCall} {next : Interact (Bool × AuthProxy)}
    (h : next.Finishes (respond select crypt) w) :
    (orFail call proxy next).Finishes (respond select crypt) w := by
  unfold orFail
  refine finishes_consult ?_
  have hanswer : respond select crypt w (.db call) = (w.succeeds call, w) := rfl
  rw [hanswer]
  cases w.succeeds call with
  | false => exact Finishes.pure _
  | true => exact h

theorem login_finishes (hfit : HashesFit crypt) (g : Globals) :
    (login g).Finishes (respond select crypt) w := by
  unfold login
  refine finishes_consult ?_
  generalize respond select crypt w (.fgets .email) = reply
  obtain ⟨email, w₁⟩ := reply
  cases email with
  | none => exact Finishes.pure _
  | some email =>
    refine finishes_consult ?_
    generalize respond select crypt w₁ (.fgets .password) = reply
    obtain ⟨password, w₂⟩ := reply
    cases password with
    | none => exact Finishes.pure _
    | some password =>
      refine Finishes.bind (orFail_finishes (orFail_finishes (orFail_finishes (orFail_finishes
        (orFail_finishes (orFail_finishes (checkPassword_finishes hfit))))))) fun result w₃ => ?_
      obtain ⟨ok, proxy⟩ := result
      cases ok with
      | false => exact ⟨_, _, rfl⟩
      | true => exact ⟨_, _, rfl⟩

/-- With hashes that fit, every sequence of calls leads to a session. -/
theorem calls_return (hfit : HashesFit crypt) (g : Globals) (calls : List (Call Table)) :
    ∃ g', runSteps (Globals.call select crypt) g calls = some g' := by
  induction calls generalizing g with
  | nil => exact ⟨g, rfl⟩
  | cons c calls ih =>
    have hcall : ∃ g₁, g.call select crypt c = some g₁ := by
      unfold Globals.call
      cases c.command with
      | login =>
        obtain ⟨g₁, w', hrun⟩ :=
          (login_finishes hfit g : (login g).Finishes (respond select crypt) c.world)
        exact ⟨g₁, by simp only [hrun]⟩
      | logout => exact ⟨_, rfl⟩
    obtain ⟨g₁, hcall⟩ := hcall
    obtain ⟨g', hrun⟩ := ih g₁
    exact ⟨g', runSteps_cons.2 ⟨g₁, hcall, hrun⟩⟩

/-! ## The session over a run of calls -/

variable (select crypt) in
/-- The flag and the proxy agree, and the proxy holds the row that the last
completed login selected with the email it read, and whose password is the
hash of the password it read. `column` says what of a column counts. -/
structure SessionOf (column : List Byte → List Byte) (g : Globals)
    (last : Option (Surroundings Table × CString × CString)) : Prop where
  flag : g.isLoggedIn = g.authProxy.isAuthenticated
  loggedIn : g.authProxy.isAuthenticated = true → ∃ w email password row hashed,
    last = some (w, email, password) ∧ select w.users email = some row ∧
      crypt password authSalt = some hashed ∧ column row.password = hashed.bytes ∧
      g.authProxy.authenticatedUser.text.bytes = (column row.name).take 99 ∧
      g.authProxy.authenticatedRole.text.bytes = (column row.role).take 49
  loggedOut : g.authProxy.isAuthenticated = false →
    g.authProxy.authenticatedUser.text = .empty ∧ g.authProxy.authenticatedRole.text = .empty

/-- What of a column a C string holds. -/
def asString (value : List Byte) : List Byte := (CString.ofBytes value).bytes

variable {g g' : Globals} {last : Option (Surroundings Table × CString × CString)}

/-- Nobody is logged in, and the proxy is blank. -/
theorem SessionOf.nobody {column : List Byte → List Byte} (hflag : g.isLoggedIn = false)
    (hproxy : g.authProxy = .zero) : SessionOf select crypt column g last where
  flag := by rw [hflag, hproxy]; rfl
  loggedIn h := by
    rw [hproxy] at h
    cases h
  loggedOut _ := by
    rw [hproxy]
    exact ⟨CharArray.text_zero, CharArray.text_zero⟩

/-- A login, whatever it meets. -/
theorem SessionOf.login {calls : List (Call Table)} {c : Call Table}
    (h : SessionOf select crypt asString g (lastCompleted calls)) (hcommand : c.command = .login)
    (hlogin : LoggedIn select crypt g c.world g') :
    SessionOf select crypt asString g' (lastCompleted (calls ++ [c])) := by
  unfold LoggedIn at hlogin
  have hcompleted : c.completed = (linesRead c.world.stdin).map fun lines => (c.world, lines) := by
    unfold Call.completed
    rw [hcommand]
  cases hlines : linesRead c.world.stdin with
  | none =>
    rw [hlines] at hlogin hcompleted
    rw [lastCompleted_of_none hcompleted, hlogin]
    exact h
  | some lines =>
    obtain ⟨email, password⟩ := lines
    rw [hlines] at hlogin hcompleted
    rcases hlogin with rfl | ⟨row, hrow, rfl⟩
    · exact SessionOf.nobody rfl rfl
    · refine ⟨rfl, fun _ => ?_, fun hfalse => ?_⟩
      · refine ⟨c.world, email, password, row, _, lastCompleted_of_some hcompleted, hrow.selected,
          hrow.hashed, rfl, ?_, ?_⟩
        · exact congrArg CString.bytes (accept_user _ _)
        · exact congrArg CString.bytes (accept_role _ _)
      · cases hfalse

/-- A logout: a session that was there ends, and there is none after it. -/
theorem SessionOf.logout {calls : List (Call Table)} {c : Call Table}
    (h : SessionOf select crypt asString g (lastCompleted calls)) (hcommand : c.command = .logout) :
    SessionOf select crypt asString
      { g with authProxy := logoutProxy g.authProxy, isLoggedIn := false }
      (lastCompleted (calls ++ [c])) := by
  have hcompleted : c.completed = none := by
    unfold Call.completed
    rw [hcommand]
  rw [lastCompleted_of_none hcompleted]
  unfold logoutProxy
  cases hauth : g.authProxy.isAuthenticated with
  | true => exact SessionOf.nobody rfl rfl
  | false =>
    exact ⟨hauth.symm, fun htrue => absurd (hauth.symm.trans htrue) (by decide), h.loggedOut⟩

/-- One call keeps the session consistent. -/
theorem SessionOf.call {calls : List (Call Table)} {c : Call Table}
    (h : SessionOf select crypt asString g (lastCompleted calls))
    (hcall : g.call select crypt c = some g') :
    SessionOf select crypt asString g' (lastCompleted (calls ++ [c])) := by
  unfold Globals.call at hcall
  cases hcommand : c.command with
  | login =>
    rw [hcommand] at hcall
    rcases hrun : (LogisticService.login g).run (respond select crypt) c.world with ⟨r, w'⟩
    simp only [hrun] at hcall
    cases r with
    | error e => cases hcall
    | ok g₁ =>
      cases hcall
      exact h.login hcommand (login_ends _ w' hrun)
  | logout =>
    rw [hcommand] at hcall
    cases hcall
    exact h.logout hcommand

/-- **The session is consistent** in every state that logins and logouts lead
to: the flag agrees with the proxy, the proxy holds the name and the role of
the row the last completed login selected, as C strings cut to 99 and 49
bytes, and only after that row's password was the hash of the password read;
when nobody is logged in, both strings are empty. -/
theorem session_consistent {calls : List (Call Table)}
    (hrun : runSteps (Globals.call select crypt) .initial calls = some g) :
    SessionOf select crypt asString g (lastCompleted calls) := by
  have hstart : SessionOf select crypt asString .initial (lastCompleted ([] : List (Call Table))) :=
    SessionOf.nobody rfl rfl
  exact runSteps_recorded
    (J := fun calls g => SessionOf select crypt asString g (lastCompleted calls))
    (fun past g c g' h hcall => h.call hcall) hstart hrun

end

/-! ## A login as it is typed -/

/-- The bytes of an ASCII text. -/
def ascii (text : String) : List Byte := text.toList.map fun c => UInt8.ofNat c.toNat

/-- A hash that keeps the password behind the salt. -/
def saltedCrypt (password : CString) (salt : String) : Option CString :=
  some (.ofBytes (ascii salt ++ password.bytes))

/-- A table with one user. -/
def selectFrom (users : List (List Byte × UserRow)) (email : CString) : Option UserRow :=
  (users.find? fun user => user.1 = email.bytes).map Prod.snd

/-- Surroundings where nothing fails. -/
def typing (lines : String) (users : List (List Byte × UserRow)) :
    Surroundings (List (List Byte × UserRow)) where
  stdin := ascii lines
  connects _ := true
  communicated _ := some 0
  sends := true
  succeeds _ := true
  users := users
  fetches := true

/-- The user, with so much behind the name. -/
def annWith (behind : List Byte) : List (List Byte × UserRow) :=
  [(ascii "ann@example.com", ⟨ascii "Ann" ++ behind, ascii (authSalt ++ "secret"), ascii "admin"⟩)]

/-- A login, and another one that finds no more input. -/
def annLogsIn (behind : List Byte) : List (Call (List (List Byte × UserRow))) :=
  [⟨.login, typing "ann@example.com\nsecret\n" (annWith behind)⟩,
    ⟨.login, typing "ann@example.com\n" (annWith behind)⟩]

theorem annLogsIn_run : ∃ g,
    runSteps (Globals.call selectFrom saltedCrypt) .initial (annLogsIn []) = some g ∧
      g.authProxy.isAuthenticated = true := by
  have h : (runSteps (Globals.call selectFrom saltedCrypt) .initial (annLogsIn [])).map
      (fun g => g.authProxy.isAuthenticated) = some true := by decide +kernel
  exact Option.map_eq_some_iff.1 h

theorem session_consistent_ann : ∃ g, g.authProxy.isAuthenticated = true ∧
    SessionOf selectFrom saltedCrypt asString g (lastCompleted (annLogsIn [])) := by
  obtain ⟨g, hrun, hauth⟩ := annLogsIn_run
  exact ⟨g, hauth, session_consistent hrun⟩

/-- **What stands behind a NUL does not count**: with the name `"Ann\0x"` the
login succeeds and the proxy holds `Ann`, which is not the first 99 bytes of
the name. -/
theorem session_ends_at_nul : ∃ g,
    runSteps (Globals.call selectFrom saltedCrypt) .initial (annLogsIn [0, 120]) = some g ∧
      ¬ SessionOf selectFrom saltedCrypt (fun column => column) g
        (lastCompleted (annLogsIn [0, 120])) := by
  have h : (runSteps (Globals.call selectFrom saltedCrypt) .initial (annLogsIn [0, 120])).map
      (fun g => (g.authProxy.isAuthenticated, g.authProxy.authenticatedUser.text.bytes)) =
        some (true, ascii "Ann") := by decide +kernel
  obtain ⟨g, hrun, hg⟩ := Option.map_eq_some_iff.1 h
  refine ⟨g, hrun, fun hsession => ?_⟩
  obtain ⟨hauth, huser⟩ := Prod.mk.inj hg
  obtain ⟨w, email, password, row, hashed, hlast, hselect, _, _, hname, _⟩ :=
    hsession.loggedIn hauth
  have hrow : (lastCompleted (annLogsIn [0, 120])).map
      (fun last => (selectFrom last.1.users last.2.1).map UserRow.name) =
        some (some (ascii "Ann" ++ [0, 120])) := by decide +kernel
  rw [hlast, Option.map_some, hselect, Option.map_some] at hrow
  rw [huser, Option.some.inj (Option.some.inj hrow)] at hname
  exact absurd hname (by decide +kernel)

end LogisticService
