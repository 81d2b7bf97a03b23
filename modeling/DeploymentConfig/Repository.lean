import DeploymentConfig.Required

/-!
# Repositories

Where the source of an application comes from, and how to get at it. A password
is only sent over https.
-/

namespace DeploymentConfig

inductive RepositoryAuth where
  | none
  | basic (username password : String)
  | ssh (keyId : String)
  deriving DecidableEq

def RepositoryAuth.schema : Schema RepositoryAuth :=
  .union "method"
    (.variant "none" .nil <|
      .variant "basic" (.required "username" .text <| .required "password" .text .nil) <|
      .variant "ssh" (.defaulted "keyId" "" .text .nil) .nil)
    (fun
      | none => .inl ()
      | basic username password => .inr (.inl (username, password, ()))
      | ssh keyId => .inr (.inr (.inl (keyId, ()))))
    (fun
      | .inl _ => none
      | .inr (.inl (username, password, _)) => basic username password
      | .inr (.inr (.inl (keyId, _))) => ssh keyId)

structure RepositoryForm where
  name : String
  url : String
  auth : RepositoryAuth
  deriving DecidableEq

namespace RepositoryForm

def schema : Schema RepositoryForm :=
  .record (.required "name" .text <| .required "url" .text <|
      .defaulted "auth" .none RepositoryAuth.schema .nil)
    (fun f => (f.name, f.url, f.auth, ()))
    (fun (name, url, auth, _) => ⟨name, url, auth⟩)

/-- The scheme over which a password may be sent, by the first letters of the address. -/
def secureScheme : String :=
  "https"

def authIssues (f : RepositoryForm) : List Issue :=
  match f.auth with
  | .basic username _ =>
    requireText "auth.username" username "Username" ++
      if Text.isBlank f.url || secureScheme.toList.isPrefixOf f.url.toList then []
      else [⟨"url", .crossFieldConstraint, "Basic authentication requires an https URL"⟩]
  | _ => []

def issues (f : RepositoryForm) : List Issue :=
  requireText "name" f.name "Name" ++ requireText "url" f.url "URL" ++ f.authIssues

def check (f : RepositoryForm) : Except Report Unit :=
  Report.verdict f.issues

end RepositoryForm

end DeploymentConfig
