import KiwiCatalog.Lib.Table
import KiwiCatalog.Lib.Transition
import KiwiCatalog.Lib.Url

/-!
# Merchant tokens — who issues them and who reads them

The five writers of `merchant_tokens` and the two readers that authenticate with it.  A generated
token is the prefix and what the random source gave.
-/

set_option autoImplicit false

namespace KiwiCatalog.Accounts.MerchantTokens

/-! ## Rows -/

inductive ApplicationStatus
  | pending
  | approved
  | rejected
  deriving DecidableEq, Repr

inductive TokenStatus
  | active
  | revoked
  deriving DecidableEq, Repr

structure TokenRow where
  merchantId : String
  tokenHash : String
  tokenEncrypted : String
  status : TokenStatus
  deriving DecidableEq, Repr

structure Merchant where
  id : String
  name : String
  deriving DecidableEq, Repr

structure Account where
  accountId : Nat
  email : String
  merchantId : String
  merchantName : String
  phone : String
  wechat : String
  deriving DecidableEq, Repr

structure Application where
  applicationId : Nat
  status : ApplicationStatus
  agentName : String
  contactEmail : String
  phone : String
  merchantId : String
  -- zero is none
  accountId : Nat
  deriving DecidableEq, Repr

structure Db where
  accounts : List Account
  applications : List Application
  merchants : List Merchant
  tokens : List TokenRow

inductive Error
  | auth
  | notFound
  | conflict
  -- the encryption of a token raises
  | encryption
  deriving DecidableEq, Repr

/-- What the process is configured with, and the digest of a token. -/
structure Env where
  digest : String → String
  encrypt : String → Option String
  legacyHmacEnabled : Bool
  -- `owner_token`; `none` is a secret that is not configured
  ownerToken : String → Option String
  digest_injective : Function.Injective digest
  -- `hexdigest`
  ownerToken_hex : ∀ merchantId text, ownerToken merchantId = some text →
    text.toList.all (fun c => c.isDigit || ('a' ≤ c && c ≤ 'f')) = true

/-- `str.strip`. -/
def strip (text : String) : String := String.ofList (Url.strip text.toList)

/-! ## Statements -/

/-- `insert or ignore into merchant_tokens`. -/
def insertOrIgnore (row : TokenRow) (tokens : List TokenRow) : List TokenRow :=
  (Table.insert? TokenRow.merchantId row tokens).getD tokens

/-- `insert or replace into merchant_tokens`. -/
def insertOrReplace (row : TokenRow) (tokens : List TokenRow) : List TokenRow :=
  Table.deleteWhere (fun r => decide (r.merchantId = row.merchantId)) tokens ++ [row]

/-- `insert or ignore into merchants`. -/
def ensureMerchant (merchant : Merchant) (merchants : List Merchant) : List Merchant :=
  (Table.insert? Merchant.id merchant merchants).getD merchants

def updateAccount (accountId : Nat) (f : Account → Account) (accounts : List Account) :
    List Account :=
  Table.updateWhere (fun a => decide (a.accountId = accountId)) f accounts

def updateToken (merchantId : String) (f : TokenRow → TokenRow) (tokens : List TokenRow) :
    List TokenRow :=
  Table.updateWhere (fun r => decide (r.merchantId = merchantId)) f tokens

/-! ## The writers -/

def merchantTokenPrefix : String := "mkt_"

def generateMerchantToken (random : String) : String := merchantTokenPrefix ++ random

/-- `ensure_merchant_id`; `fresh` is what `new_platform_merchant_id` generates. -/
def ensureMerchantId (accountId : Nat) (nameHint fresh : String) (db : Db) : Db × String :=
  match Table.lookup Account.accountId accountId db.accounts with
  | none => (db, "")
  | some row =>
    let existing := strip row.merchantId
    let merchantId := if existing = "" then fresh else existing
    let accounts :=
      if existing = "" then
        Table.updateWhere (fun a => decide (a.accountId = accountId ∧ a.merchantId = ""))
          (fun a => { a with merchantId := merchantId }) db.accounts
      else db.accounts
    let name := if nameHint = "" then merchantId else nameHint
    ({ db with accounts := accounts, merchants := ensureMerchant ⟨merchantId, name⟩ db.merchants },
      merchantId)

/-- The fields of a registration, checked, and whether the ticket was consumed. -/
structure Registration where
  email : String
  merchantName : String
  phone : String
  wechat : String
  ticketConsumed : Bool

/-- A merchant without a row gets one that no token matches. -/
def plantPlaceholder (merchantId : String) (tokens : List TokenRow) : List TokenRow :=
  if merchantId = "" then tokens else insertOrIgnore ⟨merchantId, "", "", .revoked⟩ tokens

/-- `accountId` is the row id that the insertion gets. -/
def registerAccount (r : Registration) (accountId : Nat) (fresh : String) (db : Db) :
    Except Error Db :=
  if r.ticketConsumed = false then .error .auth
  else if db.accounts.any fun a => a.email = r.email then .error .conflict
  else
    let row := ⟨accountId, r.email, "", r.merchantName, r.phone, r.wechat⟩
    let (db, merchantId) :=
      ensureMerchantId accountId r.merchantName fresh { db with accounts := db.accounts ++ [row] }
    .ok { db with tokens := plantPlaceholder merchantId db.tokens }

/-- The account of an application, found by its e-mail address where the application has none. -/
def linkedAccount (row : Application) (accounts : List Account) : Nat :=
  if row.accountId ≠ 0 then row.accountId
  else
    match Table.lookup Account.email row.contactEmail accounts with
    | none => 0
    | some a => a.accountId

/-- An account that has a merchant keeps it. -/
def approvedMerchantId (accountId : Nat) (fresh : String) (accounts : List Account) : String :=
  let existing :=
    if accountId = 0 then ""
    else
      match Table.lookup Account.accountId accountId accounts with
      | none => ""
      | some a => strip a.merchantId
  if existing = "" then fresh else existing

def displayName (accountId : Nat) (agentName : String) (accounts : List Account) : String :=
  if accountId = 0 then agentName
  else
    match Table.lookup Account.accountId accountId accounts with
    | none => agentName
    | some a => if strip a.merchantName = "" then agentName else strip a.merchantName

/-- The account's row after an approval. -/
def approvedAccounts (accountId : Nat) (merchantId : String) (row : Application)
    (accounts : List Account) : List Account :=
  if accountId = 0 then accounts
  else
    Table.updateWhere (fun a => decide (a.accountId = accountId ∧ a.merchantName = ""))
      (fun a => { a with merchantName := row.agentName, phone := row.phone })
      (updateAccount accountId (fun a => { a with merchantId := merchantId }) accounts)

/-- The merchant of the approval is returned beside the tables. -/
def approveApplication (env : Env) (applicationId : Nat) (fresh random : String) (db : Db) :
    Except Error (Db × String) :=
  match Table.lookup Application.applicationId applicationId db.applications with
  | none => .error .notFound
  | some row =>
    if row.status ≠ .pending then .error .conflict
    else
      let accountId := linkedAccount row db.accounts
      let merchantId := approvedMerchantId accountId fresh db.accounts
      let name := displayName accountId row.agentName db.accounts
      let token := generateMerchantToken random
      match env.encrypt token with
      | none => .error .encryption
      | some encrypted =>
        .ok ({
          accounts := approvedAccounts accountId merchantId row db.accounts
          applications := Table.updateWhere (fun a => decide (a.applicationId = applicationId))
            (fun a => { a with status := .approved, merchantId := merchantId }) db.applications
          merchants := ensureMerchant ⟨merchantId, name⟩ db.merchants
          tokens := insertOrReplace ⟨merchantId, env.digest token, encrypted, .active⟩ db.tokens },
          merchantId)

/-- The row with another token in it. -/
def TokenRow.rotate (digest encrypted : String) (r : TokenRow) : TokenRow :=
  { r with tokenHash := digest, tokenEncrypted := encrypted, status := .active }

def TokenRow.revoke (r : TokenRow) : TokenRow := { r with status := .revoked }

def rotateToken (env : Env) (merchantId random : String) (db : Db) : Except Error Db :=
  match Table.lookup TokenRow.merchantId merchantId db.tokens with
  | none => .error .notFound
  | some _ =>
    let token := generateMerchantToken random
    match env.encrypt token with
    | none => .error .encryption
    | some encrypted =>
      .ok { db with
        tokens := updateToken merchantId (TokenRow.rotate (env.digest token) encrypted) db.tokens }

def revokeToken (merchantId : String) (db : Db) : Except Error Db :=
  match Table.lookup TokenRow.merchantId merchantId db.tokens with
  | none => .error .notFound
  | some row =>
    if row.status = .revoked then .ok db
    else .ok { db with tokens := updateToken merchantId TokenRow.revoke db.tokens }

/-- A token that a writer has returned. -/
structure Issue where
  merchantId : String
  token : String
  deriving DecidableEq, Repr

/-- The loop of `backfill_legacy_merchant_tokens`. -/
def backfillRows (env : Env) (random : String → String) :
    List Merchant → List TokenRow → Except Error (List TokenRow × List Issue)
  | [], tokens => .ok (tokens, [])
  | m :: rest, tokens =>
    let token := generateMerchantToken (random m.id)
    match env.encrypt token with
    | none => .error .encryption
    | some encrypted =>
      let tokens := insertOrIgnore ⟨m.id, env.digest token, encrypted, .active⟩ tokens
      match backfillRows env random rest tokens with
      | .error e => .error e
      | .ok (tokens, issued) => .ok (tokens, ⟨m.id, token⟩ :: issued)

/-- The merchants without a row, by id. -/
def legacyMerchants (db : Db) : List Merchant :=
  (db.merchants.filter fun m =>
    (Table.lookup TokenRow.merchantId m.id db.tokens).isNone).mergeSort fun m n => m.id ≤ n.id

def backfillLegacyMerchantTokens (env : Env) (random : String → String) (db : Db) :
    Except Error (Db × List Issue) :=
  match backfillRows env random (legacyMerchants db) db.tokens with
  | .error e => .error e
  | .ok (tokens, issued) => .ok ({ db with tokens := tokens }, issued)

/-! ## The readers -/

/-- The texts of the two fields of a request; a field that is not there is empty. -/
structure Payload where
  ownerToken : String
  authToken : String
  deriving DecidableEq, Repr

/-- The body comes before the header. -/
def Payload.presented (p : Payload) : String :=
  if p.ownerToken = "" then p.authToken else p.ownerToken

def requireOwnerToken (env : Env) (p : Payload) (merchantId : String) : Except Error Unit :=
  if merchantId = "" then .error .auth
  else if p.ownerToken = "" then .error .auth
  else
    match env.ownerToken merchantId with
    | none => .error .auth
    | some expected => if p.ownerToken = expected then .ok () else .error .auth

/-- `require_merchant_token` with a connection. -/
def requireMerchantToken (env : Env) (p : Payload) (merchantId : String) (db : Db) :
    Except Error Unit :=
  let presented := p.presented
  if presented = "" then requireOwnerToken env p merchantId
  else
    let rows := db.tokens.filter fun r => decide (r.merchantId = merchantId)
    if rows ≠ [] then
      if rows.any fun r => r.status = .active && env.digest presented = r.tokenHash then .ok ()
      else .error .auth
    else if env.legacyHmacEnabled = false then .error .auth
    else requireOwnerToken env p merchantId

def resolveMerchantByToken (env : Env) (token : String) (db : Db) : Option TokenRow :=
  db.tokens.find? fun r => r.status = .active && r.tokenHash = env.digest token

end KiwiCatalog.Accounts.MerchantTokens
