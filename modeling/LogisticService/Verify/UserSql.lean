import LogisticService.Client.UserDb
import LogisticService.SqlText

/-!
# What the user statements mean

`createUser` and `deleteUser` print their arguments between single quotes into
a buffer of 512 bytes, without escaping them. The statement sent reads as the
one that was asked for just when no argument has a quote, a backslash stands in
one only before `%` or `_`, and the whole fits the buffer.
-/

namespace LogisticService

open Effects CLib Program

/-- One `INSERT` of four values. -/
def insertUser (name hashed email role : CString) : Sql.Template where
  fields := [(bytesOf "INSERT INTO user (name, password, email, role) VALUES (", name.bytes),
    (bytesOf ", ", hashed.bytes), (bytesOf ", ", email.bytes), (bytesOf ", ", role.bytes)]
  tail := bytesOf ")"

/-- A `DELETE` whose only condition is on the email. -/
def deleteByEmail (email : CString) : Sql.Template where
  fields := [(bytesOf "DELETE FROM user WHERE email=", email.bytes)]
  tail := []

/-- The text sent is read as the statement. -/
def ReadsAs (text : CString) (statement : Sql.Template) : Prop :=
  Sql.elements text.bytes = some statement.elements

/-- The bytes of the texts `crypt` makes: those of a hash, and the star of the
token that stands for a failure. -/
def HashByte (b : Byte) : Prop :=
  (48 ≤ b ∧ b ≤ 57) ∨ (65 ≤ b ∧ b ≤ 90) ∨ (97 ≤ b ∧ b ≤ 122) ∨ b ∈ bytesOf "./$*"

instance (b : Byte) : Decidable (HashByte b) := inferInstanceAs (Decidable (_ ∨ _ ∨ _ ∨ _))

/-- `crypt` makes texts of letters, digits and `./$*`. -/
def WritesHashes (crypt : CString → String → Option CString) : Prop :=
  ∀ password hashed, crypt password authSalt = some hashed → ∀ b ∈ hashed.bytes, HashByte b

/-- A call of `crypt` is answered by it; the others as they may be. -/
def AnswersCrypt (crypt : CString → String → Option CString) : (o : UserOperation) → o.Reply → Prop
  | .crypt password salt, hashed => hashed = crypt password salt
  | _, _ => True

/-- The function may come to send the text. -/
def Sends (crypt : CString → String → Option CString) (p : UserCall Int) (text : CString) : Prop :=
  ∃ h k, Leads p h (.call (.mysqlQuery text) k) ∧ ∀ e ∈ h, AnswersCrypt crypt e.1 e.2

/-! ## The texts -/

/-- The code of `createUser`'s statement before its first value. -/
def insertHead : List Byte := bytesOf "INSERT INTO user (name, password, email, role) VALUES ("

theorem insertUser_separates (name hashed email role : CString) :
    (insertUser name hashed email role).Separates where
  code := by
    have hhead : insertHead ≠ [] ∧ ∀ b ∈ insertHead, Sql.Plain b :=
      ⟨by decide, Sql.plain_of_all (by decide)⟩
    have hcomma : bytesOf ", " ≠ [] ∧ ∀ b ∈ bytesOf ", ", Sql.Plain b :=
      ⟨by decide, Sql.plain_of_all (by decide)⟩
    simp only [insertUser, List.forall_mem_cons]
    exact ⟨hhead, hcomma, hcomma, hcomma, fun _ h => absurd h List.not_mem_nil⟩
  tail := Sql.plain_of_all (by decide : (bytesOf ")").all (fun b => decide (Sql.Plain b)) = true)

theorem deleteByEmail_separates (email : CString) : (deleteByEmail email).Separates where
  code := by
    have hhead : bytesOf "DELETE FROM user WHERE email=" ≠ [] ∧
        ∀ b ∈ bytesOf "DELETE FROM user WHERE email=", Sql.Plain b :=
      ⟨by decide, Sql.plain_of_all (by decide)⟩
    simp only [deleteByEmail, List.forall_mem_cons]
    exact ⟨hhead, fun _ h => absurd h List.not_mem_nil⟩
  tail := fun _ h => absurd h List.not_mem_nil

/-- `'%s'` prints its argument between quotes. -/
theorem format_quoted (fmt : List Byte) (s : CString) (args : List CString) :
    format (Sql.quote :: 37 :: 115 :: Sql.quote :: fmt) (s :: args) =
      Sql.quote :: (s.bytes ++ Sql.quote :: format fmt args) := by
  simp [format, Sql.quote]

theorem format_insertFormat (name hashed email role : CString) :
    format insertFormat.bytes [name, hashed, email, role] =
      (insertUser name hashed email role).text := by
  have hformat : insertFormat.bytes = insertHead ++ Sql.quote :: 37 :: 115 :: Sql.quote ::
      (bytesOf ", " ++ Sql.quote :: 37 :: 115 :: Sql.quote ::
        (bytesOf ", " ++ Sql.quote :: 37 :: 115 :: Sql.quote ::
          (bytesOf ", " ++ Sql.quote :: 37 :: 115 :: Sql.quote :: bytesOf ")"))) := by decide
  have hhead : 37 ∉ insertHead := by decide
  have hcomma : 37 ∉ bytesOf ", " := by decide
  rw [hformat, format_append hhead, format_quoted, format_append hcomma, format_quoted,
    format_append hcomma, format_quoted, format_append hcomma, format_quoted]
  rfl

theorem format_deleteFormat (email : CString) :
    format deleteFormat.bytes [email] = (deleteByEmail email).text := by
  have hformat : deleteFormat.bytes = bytesOf "DELETE FROM user WHERE email=" ++
      [Sql.quote, 37, 115, Sql.quote] := by decide
  rw [hformat, format_append (by decide), format_quoted]
  rfl

/-! ## What is sent -/

/-- Every text that is sent satisfies `P`. -/
def SendsOnly (P : CString → Prop) (_ : List (Answered UserDb)) (o : UserOperation) : Prop :=
  ∀ text, o = .mysqlQuery text → P text

section

variable {crypt : CString → String → Option CString} {P : CString → Prop}
  {h : List (Answered UserDb)}

theorem sendsOnly_query {text : CString} (hP : P text) : SendsOnly P h (.mysqlQuery text) := by
  intro text' heq
  cases heq
  exact hP

theorem Sends.satisfies {p : UserCall Int} {text : CString} (hsends : Sends crypt p text)
    (hp : p.Meets (AnswersCrypt crypt) (SendsOnly P) (fun _ _ => True) []) : P text := by
  obtain ⟨h, k, hasks, hanswers⟩ := hsends
  exact hp.issued hasks hanswers text rfl

theorem given_eq_some {s t : CString} (h : given (some s) = some t) : t = s := by
  rw [given, Option.filter_eq_some_iff] at h
  exact (Option.some.inj h.1).symm

/-- A failed query is reported without another one. -/
theorem queryFailed_quiet {message : String} :
    (queryFailed message).Meets (AnswersCrypt crypt) (SendsOnly P) (fun _ _ => True) h :=
  ⟨nofun, fun _ _ => ⟨nofun, fun _ _ => ⟨nofun, fun _ _ => trivial⟩⟩⟩

/-- `createUser` sends what it prints from its arguments and the hash of the
password. -/
theorem createUser_sends {name password email role text : CString}
    (hsends : Sends crypt (createUser name password email role) text) :
    ∃ hashed, crypt password authSalt = some hashed ∧
      text = snprintf MAX_QUERY_LENGTH insertFormat [name, hashed, email, role] := by
  refine hsends.satisfies (P := fun text => ∃ hashed, crypt password authSalt = some hashed ∧
    text = snprintf MAX_QUERY_LENGTH insertFormat [name, hashed, email, role]) ?_
  unfold createUser
  split
  · next _ _ _ _ name' password' email' role' hname hpassword hemail hrole =>
    obtain rfl := given_eq_some hname
    obtain rfl := given_eq_some hpassword
    obtain rfl := given_eq_some hemail
    obtain rfl := given_eq_some hrole
    refine ⟨nofun, fun conn _ => ?_⟩
    cases conn with
    | false => trivial
    | true =>
      refine ⟨nofun, fun hashed hcrypt => ?_⟩
      cases hashed with
      | none => exact ⟨nofun, fun _ _ => ⟨nofun, fun _ _ => trivial⟩⟩
      | some hashed =>
        refine ⟨sendsOnly_query ⟨hashed, hcrypt.symm, rfl⟩, fun ok _ => ?_⟩
        cases ok with
        | true => exact ⟨nofun, fun _ _ => ⟨nofun, fun _ _ => trivial⟩⟩
        | false => exact queryFailed_quiet
  · exact ⟨nofun, fun _ _ => trivial⟩

/-- With all its arguments there, and a connection and a hash, it does send it. -/
theorem sends_createUser {name password email role hashed : CString}
    (hgiven : name ≠ .empty ∧ password ≠ .empty ∧ email ≠ .empty ∧ role ≠ .empty)
    (hhashed : crypt password authSalt = some hashed) :
    Sends crypt (createUser name password email role)
      (snprintf MAX_QUERY_LENGTH insertFormat [name, hashed, email, role]) := by
  have hsome {s : CString} (hs : s ≠ .empty) : given (some s) = some s := by
    rw [given, Option.filter_eq_some_iff]
    exact ⟨rfl, decide_eq_true hs⟩
  obtain ⟨hname, hpassword, hemail, hrole⟩ := hgiven
  unfold Sends createUser
  rw [hsome hname, hsome hpassword, hsome hemail, hsome hrole]
  exact ⟨[⟨.connectToDb, true⟩, ⟨.crypt password authSalt, some hashed⟩], _,
    @Leads.call UserDb Stop Int .connectToDb _ _ _ true
      (@Leads.call UserDb Stop Int (.crypt password authSalt) _ _ _ (some hashed) (.refl _)),
    by simp [AnswersCrypt, hhashed]⟩

theorem deleteUser_sends {email text : CString} (hsends : Sends crypt (deleteUser email) text) :
    text = snprintf MAX_QUERY_LENGTH deleteFormat [email] := by
  refine hsends.satisfies (P := fun text =>
    text = snprintf MAX_QUERY_LENGTH deleteFormat [email]) ?_
  unfold deleteUser
  split
  · next email' hemail =>
    obtain rfl := given_eq_some hemail
    refine ⟨nofun, fun conn _ => ?_⟩
    cases conn with
    | false => trivial
    | true =>
      refine ⟨sendsOnly_query rfl, fun ok _ => ?_⟩
      cases ok with
      | true =>
        exact ⟨nofun, fun _ _ => ⟨nofun, fun _ _ => ⟨nofun, fun _ _ => trivial⟩⟩⟩
      | false => exact queryFailed_quiet
  · exact ⟨nofun, fun _ _ => trivial⟩

end

/-! ## What it means -/

/-- Hashes are inert. -/
theorem WritesHashes.inert {crypt : CString → String → Option CString} (hcrypt : WritesHashes crypt)
    {password hashed : CString} (hhashed : crypt password authSalt = some hashed) :
    Sql.Inert Sql.quote hashed.bytes := by
  refine Sql.Inert.of_forall fun b hb => ?_
  have hbyte := hcrypt password hashed hhashed b hb
  refine ⟨?_, ?_⟩
  · rintro rfl
    exact absurd hbyte (by decide)
  · rintro rfl
    exact absurd hbyte (by decide)

theorem insertUser_reads_iff {name hashed email role : CString}
    (hhashed : Sql.Inert Sql.quote hashed.bytes) :
    ReadsAs (snprintf MAX_QUERY_LENGTH insertFormat [name, hashed, email, role])
        (insertUser name hashed email role) ↔
      Sql.Inert Sql.quote name.bytes ∧ Sql.Inert Sql.quote email.bytes ∧
        Sql.Inert Sql.quote role.bytes ∧
        name.bytes.length + hashed.bytes.length + email.bytes.length + role.bytes.length ≤ 441 := by
  show Sql.elements ((format _ _).take _) = _ ↔ _
  rw [format_insertFormat, Sql.Template.elements_take_iff (insertUser_separates _ _ _ _)]
  have hlength : (insertUser name hashed email role).text.length =
      70 + (name.bytes.length + hashed.bytes.length + email.bytes.length + role.bytes.length) := by
    have hhead : insertHead.length = 55 := by decide
    have hcomma : (bytesOf ", ").length = 2 := by decide
    have htail : (bytesOf ")").length = 1 := by decide
    show (insertHead ++ _ :: (_ ++ _ :: (bytesOf ", " ++ _ :: (_ ++ _ :: (bytesOf ", " ++ _ ::
      (_ ++ _ :: (bytesOf ", " ++ _ :: (_ ++ _ :: bytesOf ")")))))))).length = _
    simp only [List.length_append, List.length_cons, hhead, hcomma, htail]
    omega
  rw [hlength]
  simp only [insertUser, List.forall_mem_cons, MAX_QUERY_LENGTH]
  constructor
  · rintro ⟨⟨hname, _, hemail, hrole, _⟩, hle⟩
    exact ⟨hname, hemail, hrole, by omega⟩
  · rintro ⟨hname, hemail, hrole, hle⟩
    exact ⟨⟨hname, hhashed, hemail, hrole, fun _ h => absurd h List.not_mem_nil⟩, by omega⟩

theorem deleteByEmail_reads_iff {email : CString} :
    ReadsAs (snprintf MAX_QUERY_LENGTH deleteFormat [email]) (deleteByEmail email) ↔
      Sql.Inert Sql.quote email.bytes ∧ email.bytes.length ≤ 480 := by
  show Sql.elements ((format _ _).take _) = _ ↔ _
  rw [format_deleteFormat, Sql.Template.elements_take_iff (deleteByEmail_separates _)]
  have hlength : (deleteByEmail email).text.length = 31 + email.bytes.length := by
    have hhead : (bytesOf "DELETE FROM user WHERE email=").length = 29 := by decide
    show (bytesOf "DELETE FROM user WHERE email=" ++ _ :: (_ ++ _ :: [])).length = _
    simp only [List.length_append, List.length_cons, List.length_nil, hhead]
    omega
  rw [hlength]
  simp only [deleteByEmail, List.forall_mem_cons, MAX_QUERY_LENGTH]
  constructor
  · rintro ⟨⟨hemail, _⟩, hle⟩
    exact ⟨hemail, by omega⟩
  · rintro ⟨hemail, hle⟩
    exact ⟨⟨hemail, fun _ h => absurd h List.not_mem_nil⟩, by omega⟩

/-- **What `createUser` and `deleteUser` send reads as the one statement that
was asked for just when no argument has a quote, or a backslash before anything
but `%` and `_`, and the statement fits the buffer.** -/
theorem userSql_reads_iff {crypt : CString → String → Option CString}
    (hcrypt : WritesHashes crypt) :
    (∀ name password email role text : CString,
      Sends crypt (createUser name password email role) text →
        ∃ hashed, crypt password authSalt = some hashed ∧
          (ReadsAs text (insertUser name hashed email role) ↔
            Sql.Inert Sql.quote name.bytes ∧ Sql.Inert Sql.quote email.bytes ∧
              Sql.Inert Sql.quote role.bytes ∧
              name.bytes.length + hashed.bytes.length + email.bytes.length +
                role.bytes.length ≤ 441)) ∧
      ∀ email text : CString, Sends crypt (deleteUser email) text →
        (ReadsAs text (deleteByEmail email) ↔
          Sql.Inert Sql.quote email.bytes ∧ email.bytes.length ≤ 480) := by
  constructor
  · intro name password email role text hsends
    obtain ⟨hashed, hhashed, rfl⟩ := createUser_sends hsends
    exact ⟨hashed, hhashed, insertUser_reads_iff (hcrypt.inert hhashed)⟩
  · intro email text hsends
    obtain rfl := deleteUser_sends hsends
    exact deleteByEmail_reads_iff

/-! ## A plain user, and one with an apostrophe -/

def sampleHash : CString :=
  .ofBytes (bytesOf "$2a$12$abcdefghijklmnopqrstuuhpUZyzkTVz0sp7bT0CkJkTXMhiQqpmS")

def sampleCrypt : CString → String → Option CString := fun _ _ => some sampleHash

theorem sampleCrypt_writesHashes : WritesHashes sampleCrypt := by
  intro password hashed h b hb
  cases h
  have hall : sampleHash.bytes.all (fun b => decide (HashByte b)) = true := by decide
  exact of_decide_eq_true (List.all_eq_true.1 hall b hb)

def samplePassword : CString := .ofBytes (bytesOf "password123")
def sampleEmail : CString := .ofBytes (bytesOf "john@example.com")
def sampleRole : CString := .ofBytes (bytesOf "client")

/-- The user is created and deleted as asked for. -/
theorem plainUser_reads :
    let name : CString := .ofBytes (bytesOf "John Doe")
    ReadsAs (snprintf MAX_QUERY_LENGTH insertFormat [name, sampleHash, sampleEmail, sampleRole])
        (insertUser name sampleHash sampleEmail sampleRole) ∧
      ∀ text, Sends sampleCrypt (deleteUser sampleEmail) text →
        ReadsAs text (deleteByEmail sampleEmail) := by
  intro name
  obtain ⟨hcreate, hdelete⟩ := userSql_reads_iff sampleCrypt_writesHashes
  refine ⟨?_, fun text hsends => (hdelete _ _ hsends).2 (by decide)⟩
  obtain ⟨hashed, hhashed, hreads⟩ := hcreate name samplePassword sampleEmail sampleRole _
    (sends_createUser (by decide) rfl)
  cases hhashed
  exact hreads.2 (by decide)

/-- The apostrophe in the name ends the literal it is printed into. -/
theorem apostrophe_misread : ¬ ∀ crypt, WritesHashes crypt → ∀ name password email role : CString,
    name ≠ .empty → password ≠ .empty → email ≠ .empty → role ≠ .empty → ∀ text,
      Sends crypt (createUser name password email role) text →
        ∃ hashed, crypt password authSalt = some hashed ∧
          ReadsAs text (insertUser name hashed email role) := by
  intro h
  obtain ⟨hashed, hhashed, hreads⟩ := h sampleCrypt sampleCrypt_writesHashes
    (.ofBytes (bytesOf "O'Brien")) samplePassword sampleEmail sampleRole (by decide) (by decide)
    (by decide) (by decide) _ (sends_createUser (by decide) rfl)
  cases hhashed
  have hinert := sampleCrypt_writesHashes.inert
    (rfl : sampleCrypt samplePassword authSalt = some sampleHash)
  exact absurd ((insertUser_reads_iff hinert).1 hreads).1 (by decide)

end LogisticService
