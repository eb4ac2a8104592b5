import LogisticService.Client.Auth

/-!
# The user table

`user_db.c`: users are created and deleted by statements that are printed into
a buffer with the values between quotes. Each function opens its own connection
and closes it again; the database, `crypt` and the terminal are asked for.
-/

namespace LogisticService

open Effects CLib

def MAX_QUERY_LENGTH : Nat := 512

inductive UserOperation
  /-- `connectToDb`; it fails with a null pointer. -/
  | connectToDb
  | crypt (password : CString) (salt : String)
  /-- `mysql_query`; it succeeds with 0. -/
  | mysqlQuery (query : CString)
  | mysqlError
  | mysqlAffectedRows
  | mysqlClose
  | print (message : String)

abbrev UserOperation.Reply : UserOperation → Type
  | .connectToDb => Bool
  | .crypt _ _ => Option CString
  | .mysqlQuery _ => Bool
  | .mysqlError => String
  | .mysqlAffectedRows => Nat
  | .mysqlClose | .print _ => Unit

/-- The effect signature of the user table's functions. -/
def UserDb : Signature := ⟨UserOperation, UserOperation.Reply⟩

/-- A function on the user table. -/
abbrev UserCall := Program UserDb Stop

/-- Ask for one operation. -/
def askUserDb (o : UserOperation) : Program UserDb Stop o.Reply := @Program.perform UserDb Stop o

/-- A parameter that is neither a null pointer nor empty. -/
def given (s : Option CString) : Option CString := s.filter (· ≠ .empty)

/-- `"INSERT …"`, the format of `createUser`. -/
def insertFormat : CString := .ofBytes
  (bytesOf "INSERT INTO user (name, password, email, role) VALUES ('%s', '%s', '%s', '%s')")

/-- `"DELETE …"`, the format of `deleteUser`. -/
def deleteFormat : CString := .ofBytes (bytesOf "DELETE FROM user WHERE email='%s'")

/-- The end of a function whose query failed. -/
def queryFailed (message : String) : UserCall Int := do
  let error ← askUserDb .mysqlError
  askUserDb (.print (message ++ error ++ "\n"))
  askUserDb .mysqlClose
  return 0

def createUser (name password email role : Option CString) : UserCall Int :=
  match given name, given password, given email, given role with
  | some name, some password, some email, some role => do
    let conn ← askUserDb .connectToDb
    if !conn then return 0
    else match ← askUserDb (.crypt password authSalt) with
      | none =>
        askUserDb (.print "❌ Error generating hash.\n")
        askUserDb .mysqlClose
        return 0
      | some hashed =>
        let query := snprintf MAX_QUERY_LENGTH insertFormat [name, hashed, email, role]
        if ← askUserDb (.mysqlQuery query) then
          askUserDb (.print "✅ User successfully created.\n")
          askUserDb .mysqlClose
          return 1
        else queryFailed "❌ Error creating user: "
  | _, _, _, _ => do
    askUserDb (.print "❌ Error: All fields must have values.\n")
    return 0

def deleteUser (email : Option CString) : UserCall Int :=
  match given email with
  | some email => do
    let conn ← askUserDb .connectToDb
    if !conn then return 0
    else
      let query := snprintf MAX_QUERY_LENGTH deleteFormat [email]
      if ← askUserDb (.mysqlQuery query) then
        let affected ← askUserDb .mysqlAffectedRows
        askUserDb (.print
          (if affected > 0 then "✅ User successfully deleted.\n" else "❌ User not found.\n"))
        askUserDb .mysqlClose
        return 1
      else queryFailed "❌ Error deleting user: "
  | none => do
    askUserDb (.print "❌ Email cannot be empty.\n")
    return 0

end LogisticService
