import LogisticService.Client.Console

/-!
# Authentication

`auth_proxy.c`: a login is looked up in the user table, and the proxy holds who
is logged in. The functions take the proxy and return it as they leave it.
-/

namespace LogisticService

open Effects CLib

/-- The salt every password is hashed with. -/
def authSalt : String := "$2a$12$abcdefghijklmnopqrstuvwxz0123456789"

def authQuery : String := "SELECT name, password, role FROM user WHERE email = ?"

/-- A column value as `mysql_stmt_fetch` leaves it in a buffer: with a NUL
behind it when there is room. -/
def fetched (size : Nat) (value : List Byte) : List Byte :=
  if value.length < size then value ++ [0] else value

/-- A column is longer than its buffer; `mysql_stmt_fetch` then returns
`MYSQL_DATA_TRUNCATED`, which is not 0. -/
def UserRow.truncated (row : UserRow) : Bool :=
  PROXY_MAX_NAME_LENGTH < row.name.length || PROXY_MAX_PASSWORD_LENGTH < row.password.length ||
    PROXY_MAX_ROLE_LENGTH < row.role.length

/-- The proxy with the user of a row logged in. -/
def AuthProxy.accept (proxy : AuthProxy) (row : UserRow) : AuthProxy where
  isAuthenticated := true
  authenticatedUser :=
    (proxy.authenticatedUser.strncpy (.ofBytes (fetched PROXY_MAX_NAME_LENGTH row.name))
      (PROXY_MAX_USER_LENGTH - 1) (Nat.sub_le _ _)).set (PROXY_MAX_USER_LENGTH - 1) 0
  authenticatedRole :=
    (proxy.authenticatedRole.strncpy (.ofBytes (fetched PROXY_MAX_ROLE_LENGTH row.role))
      (PROXY_MAX_ROLE_LENGTH - 1) (Nat.sub_le _ _)).set (PROXY_MAX_ROLE_LENGTH - 1) 0

/-- The end of `authenticate`, once the result is bound: the row is fetched and
its password compared. -/
def checkPassword (proxy : AuthProxy) (email password : CString) :
    Interact (Bool × AuthProxy) := do
  match ← consult (.stmtFetch email) with
  | none => return (false, proxy)
  | some row =>
    if row.truncated then return (false, proxy)
    else match ← consult (.crypt password authSalt) with
      | none => .throw .undefined
      | some hashed =>
        match strcmp hashed.bytes (fetched PROXY_MAX_PASSWORD_LENGTH row.password) with
        | none => .throw .undefined
        | some true => return (true, proxy.accept row)
        | some false => return (false, proxy)

/-- A database call after whose failure `authenticate` returns false. -/
def orFail (call : DbCall) (proxy : AuthProxy) (next : Interact (Bool × AuthProxy)) :
    Interact (Bool × AuthProxy) := do
  let ok ← consult (.db call)
  if ok then next else return (false, proxy)

def authenticate (proxy : AuthProxy) (email password : CString) : Interact (Bool × AuthProxy) :=
  orFail .connectToDb proxy <|
  orFail .stmtInit proxy <|
  orFail (.stmtPrepare authQuery) proxy <|
  orFail (.stmtBindParam email) proxy <|
  orFail .stmtExecute proxy <|
  orFail .stmtBindResult proxy <|
  checkPassword proxy email password

def logoutProxy (proxy : AuthProxy) : AuthProxy :=
  if proxy.isAuthenticated then .zero else proxy

/-- `manageDbUserWithAuth`, on a proxy that is there. -/
def manageDbUserWithAuth (proxy : AuthProxy) (email password : CString) :
    Interact (Bool × AuthProxy) :=
  authenticate proxy email password

end LogisticService
