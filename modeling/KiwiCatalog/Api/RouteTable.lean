import KiwiCatalog.Lib.PyValue
import KiwiCatalog.Lib.Url

/-!
# Api.RouteTable — routes, and the handler that a path is dispatched to

A template matches a path part by part.  Routes are tried in the order of the table, those of
extensions behind it.
-/

set_option autoImplicit false

namespace KiwiCatalog.Api

open Py (CodePoint Str lit)

/-! ## 1. `match_path` -/

def slash : CodePoint := .scalar '/'

def newline : CodePoint := .scalar '\n'

/-- `part.startswith("{") and part.endswith("}")`. -/
def isParameter (part : Str) : Bool :=
  part.head? = some (.scalar '\x7b') && part.getLast? = some (.scalar '\x7d')

def parameterName (part : Str) : Str := (part.drop 1).dropLast

abbrev Params := List (Str × Str)

/-- The parts of a template against those of a path; a parameter is `[^/]+`. -/
def matchParts : List Str → List Str → Option Params
  | [], [] => some []
  | [part], [segment] =>
    if isParameter part then
      if segment.isEmpty then none else some [(parameterName part, segment)]
    -- `$` also matches before a newline that ends the path
    else if segment = part || segment = part ++ [newline] then some []
    else none
  | part :: parts, segment :: segments =>
    if isParameter part then
      if segment.isEmpty then none
      else (matchParts parts segments).map ((parameterName part, segment) :: ·)
    else if segment = part then matchParts parts segments
    else none
  | _, _ => none

def matchPath (template path : Str) : Option Params :=
  matchParts (template.splitOn slash) (path.splitOn slash)

/-! ## 2. Routes -/

/-- `forward` relays inquiries; the other handlers are those of the table and of extensions. -/
inductive Handler
  | forward
  | named (function : String)
  | extension (index : Nat)
  deriving DecidableEq, Repr

structure RouteEntry where
  methods : List String
  pathTemplate : String
  handler : Handler

/-- A route of one method. -/
def route (method pathTemplate : String) (handler : Handler) : RouteEntry :=
  ⟨[method], pathTemplate, handler⟩

def routeTable : List RouteEntry :=
  [ route "GET" "/health" (.named "_health"),
    route "GET" "/v1/issuer-keys" (.named "enrollment_handlers.issuer_keys"),
    route "GET" "/v1/agent-catalog/agents" (.named "_list_catalog_agents"),
    route "GET" "/v1/agent-catalog/agents/search" (.named "_search_agent_catalog"),
    route "GET" "/v1/agent-catalog/agents/{catalog_agent_id}" (.named "_get_catalog_agent"),
    route "GET" "/v1/agent-catalog/merchants/{merchant_id}/agents"
      (.named "_list_merchant_catalog_agents"),
    route "POST" "/v1/agent-catalog/agents/register" (.named "_register_catalog_agent"),
    route "POST" "/v1/agent-catalog/agents/{catalog_agent_id}/heartbeat"
      (.named "_heartbeat_catalog_agent"),
    route "POST" "/v1/agent-catalog/agents/{catalog_agent_id}/refresh"
      (.named "_refresh_catalog_agent"),
    route "POST" "/v1/agent-catalog/agents/{catalog_agent_id}/verify"
      (.named "_verify_catalog_agent"),
    route "POST" "/v1/agent-catalog/agents/{catalog_agent_id}/claim"
      (.named "_claim_catalog_agent"),
    route "POST" "/v1/agent-catalog/agents/{catalog_agent_id}/suspend"
      (.named "_suspend_catalog_agent"),
    route "POST" "/v1/agent-catalog/agents/{catalog_agent_id}/reinstate"
      (.named "_reinstate_catalog_agent"),
    route "GET" "/v1/agents" (.named "_v1_list_agents"),
    route "GET" "/v1/agents/search" (.named "_v1_search_agents"),
    route "GET" "/v1/agents/{catalog_agent_id}" (.named "_v1_get_agent"),
    route "POST" "/v1/agents/register" (.named "_v1_register_agent"),
    route "POST" "/v1/agents/{catalog_agent_id}/refresh" (.named "_v1_refresh_agent"),
    route "POST" "/v1/agents/{catalog_agent_id}/verify" (.named "_v1_verify_agent"),
    route "POST" "/v1/agents/{catalog_agent_id}/claim" (.named "_v1_claim_agent"),
    route "POST" "/v1/agents/{catalog_agent_id}/runtime-bindings"
      (.named "_create_runtime_binding"),
    route "PUT" "/v1/agents/{catalog_agent_id}/runtime-access" (.named "_update_runtime_access"),
    route "GET" "/v1/agents/{catalog_agent_id}/runtime-access" (.named "_read_runtime_access"),
    route "PUT" "/v1/agents/{catalog_agent_id}/public-inquiry-consent"
      (.named "cloud_binding_handlers.update_public_inquiry_consent"),
    route "PUT" "/v1/agents/{catalog_agent_id}/runtime-keepalive-consent"
      (.named "runtime_keepalive_handlers.update_consent"),
    route "GET" "/v1/agents/{catalog_agent_id}/runtime-keepalive-consent"
      (.named "runtime_keepalive_handlers.read_consent"),
    route "POST" "/v1/agents/{catalog_agent_id}/public-inquiry" .forward,
    route "GET" "/v1/agents/{catalog_agent_id}/public-inquiry"
      (.named "public_inquiry_handlers.availability"),
    route "GET" "/v1/agents/{catalog_agent_id}/public-inquiry-consent"
      (.named "cloud_binding_handlers.read_public_inquiry_consent"),
    route "POST" "/v1/agents/{catalog_agent_id}/runtime-bindings/{binding_id}/revoke"
      (.named "_revoke_runtime_binding"),
    route "GET" "/v1/agents/{catalog_agent_id}/runtime-binding" (.named "_read_runtime_binding"),
    route "GET" "/v1/cloud-enrollments/{catalog_agent_id}/management-descriptor"
      (.named "_read_management_descriptor"),
    route "GET" "/v1/agents/{catalog_agent_id}/agent-card.json" (.named "_published_agent_card"),
    route "POST" "/v1/agents/{catalog_agent_id}/card-publications"
      (.named "_create_card_publication"),
    route "POST" "/v1/agents/{catalog_agent_id}/publish" (.named "_activate_card_publication"),
    route "POST" "/v1/agents/{catalog_agent_id}/pause" (.named "_set_card_publication_state"),
    route "POST" "/v1/agents/{catalog_agent_id}/withdraw" (.named "_set_card_publication_state"),
    route "GET" "/v1/hosted/agents/{catalog_agent_id}/agent-card.json"
      (.named "_hosted_agent_card_document"),
    route "GET" "/v1/hosted/agents/{catalog_agent_id}/ucp" (.named "_hosted_ucp_profile_document"),
    route "GET" "/v1/listings/search" (.named "_v1_search_listings"),
    route "GET" "/v1/listings/{listing_id}" (.named "_v1_get_listing"),
    route "GET" "/v1/agents/{catalog_agent_id}/listings" (.named "_v1_list_agent_listings"),
    route "POST" "/v1/listings/publish" (.named "_v1_publish_listing"),
    route "POST" "/v1/listings/{listing_id}/withdraw" (.named "_v1_withdraw_listing"),
    route "POST" "/v1/listings/{listing_id}/reinstate" (.named "_v1_reinstate_listing"),
    route "POST" "/v1/merchants/applications" (.named "_v1_submit_application"),
    route "GET" "/v1/merchants/self" (.named "_v1_merchant_self"),
    route "POST" "/v1/accounts/register/code" (.named "_v1_account_request_register_code"),
    route "POST" "/v1/accounts/register/verify" (.named "_v1_account_verify_register_code"),
    route "POST" "/v1/accounts/register" (.named "_v1_account_register"),
    route "POST" "/v1/accounts/login" (.named "_v1_account_login"),
    route "POST" "/v1/accounts/logout" (.named "_v1_account_logout"),
    route "POST" "/v1/accounts/verify-email" (.named "_v1_account_verify_email"),
    route "POST" "/v1/accounts/resend-code" (.named "_v1_account_resend_code"),
    route "POST" "/v1/accounts/forgot-password" (.named "_v1_account_forgot_password"),
    route "POST" "/v1/accounts/reset-password" (.named "_v1_account_reset_password"),
    route "GET" "/v1/accounts/me" (.named "_v1_account_me"),
    route "GET" "/v1/accounts/me/service-status" (.named "_v1_account_service_status"),
    route "POST" "/v1/accounts/token-request" (.named "_v1_account_token_request"),
    route "POST" "/v1/accounts/profile" (.named "_v1_account_profile"),
    route "POST" "/v1/accounts/agents" (.named "_v1_account_create_agent"),
    route "GET" "/v1/accounts/agents" (.named "_v1_account_list_agents"),
    route "GET" "/v1/accounts/enrollments/{enrollment_id}"
      (.named "accounts_handlers.enrollment_detail"),
    route "POST" "/v1/accounts/enrollments/{enrollment_id}/authorize"
      (.named "accounts_handlers.authorize_enrollment"),
    route "POST" "/v1/enrollments/device" (.named "enrollment_handlers.create_device"),
    route "POST" "/v1/enrollments/device/token" (.named "enrollment_handlers.device_token"),
    route "GET" "/v1/accounts/agents/{catalog_agent_id}/card" (.named "_v1_account_get_agent_card"),
    route "POST" "/v1/accounts/agents/{catalog_agent_id}/card/pause"
      (.named "_v1_account_set_agent_card_state"),
    route "POST" "/v1/accounts/agents/{catalog_agent_id}/card/resume"
      (.named "_v1_account_set_agent_card_state"),
    route "POST" "/v1/accounts/agents/{catalog_agent_id}/card/withdraw"
      (.named "_v1_account_set_agent_card_state"),
    route "GET" "/v1/accounts/agents/{catalog_agent_id}/bindings/pending"
      (.named "_v1_account_list_pending_bindings"),
    route "POST" "/v1/accounts/agents/{catalog_agent_id}/bindings/{binding_request_id}/confirm"
      (.named "_v1_account_decide_binding"),
    route "POST" "/v1/accounts/agents/{catalog_agent_id}/bindings/{binding_request_id}/reject"
      (.named "_v1_account_decide_binding"),
    route "POST" "/v1/merchant-publications" (.named "_v1_create_merchant_publication"),
    route "GET" "/v1/merchant-publications/search" (.named "_v1_search_merchant_publications"),
    route "GET" "/v1/merchant-publications/stats" (.named "_v1_merchant_publication_stats"),
    route "GET" "/v1/merchant-publications/{publication_id}"
      (.named "_v1_get_merchant_publication"),
    route "POST" "/v1/merchant-publications/{publication_id}/withdraw"
      (.named "_v1_withdraw_merchant_publication"),
    route "GET" "/m/{merchant_id}" (.named "_public_merchant_home"),
    route "GET" "/merchants/{merchant_id}" (.named "_public_merchant_home"),
    route "GET" "/merchant/{merchant_id}" (.named "_public_merchant_home"),
    route "GET" "/v1/me/follows" (.named "_v1_list_my_follows"),
    route "GET" "/v1/me/follows/updates" (.named "_v1_follow_updates"),
    route "PUT" "/v1/me/follows/{merchant_id}" (.named "_v1_follow_merchant"),
    route "DELETE" "/v1/me/follows/{merchant_id}" (.named "_v1_unfollow_merchant"),
    route "POST" "/v1/me/merchant-access/{catalog_agent_id}/fault"
      (.named "_v1_report_merchant_access_fault"),
    route "GET" "/v1/me/merchant-access/{catalog_agent_id}" (.named "_v1_get_merchant_access"),
    route "POST" "/v1/connector-identity/requests" (.named "_v1_create_connector_identity_request"),
    route "POST" "/v1/connector-identity/exchange" (.named "_v1_exchange_connector_identity"),
    route "POST" "/v1/connector-identity/revoke" (.named "_v1_revoke_connector_identity"),
    route "GET" "/v1/connector-identity/requests/{request_id}"
      (.named "_v1_get_connector_identity_request"),
    route "POST" "/v1/connector-identity/requests/{request_id}/decision"
      (.named "_v1_decide_connector_identity_request")]

/-- The routes of the extensions, whose handlers are not those of the table. -/
structure ExtensionRoute where
  methods : List String
  pathTemplate : String

def extensionEntries (specs : List ExtensionRoute) : List RouteEntry :=
  specs.mapIdx fun i spec => ⟨spec.methods, spec.pathTemplate, .extension i⟩

def allRoutes (specs : List ExtensionRoute) : List RouteEntry :=
  routeTable ++ extensionEntries specs

def RouteEntry.allows (entry : RouteEntry) (method : Str) : Bool :=
  entry.methods.any fun m => lit m = method

def RouteEntry.params (entry : RouteEntry) (path : Str) : Option Params :=
  matchPath (lit entry.pathTemplate) path

/-- `(path_known, method_allowed)`; the method is in upper case. -/
def resolveRoute (routes : List RouteEntry) (method path : Str) : Bool × Bool :=
  let known := routes.filter fun entry => (entry.params path).isSome
  (!known.isEmpty, known.any fun entry => entry.allows method)

inductive Dispatched
  | handler (handler : Handler) (params : Params)
  | methodNotAllowed
  | notFound
  deriving DecidableEq

/-- The loop of `dispatch_request`; the flag says that a path has matched before. -/
def dispatchFrom (method path : Str) : Bool → List RouteEntry → Dispatched
  | matched, [] => if matched then .methodNotAllowed else .notFound
  | matched, entry :: rest =>
    match entry.params path with
    | none => dispatchFrom method path matched rest
    | some params =>
      if entry.allows method then .handler entry.handler params
      else dispatchFrom method path true rest

def dispatchRequest (routes : List RouteEntry) (method path : Str) : Dispatched :=
  dispatchFrom method path false routes

end KiwiCatalog.Api
