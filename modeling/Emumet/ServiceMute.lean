import Emumet.ServiceFollow

/-! Muting, and the lists of what an account blocks, mutes and follows. A mute is one statement without
an activity; the lists look every target up by its id, and that of follows shows approved ones only. -/

namespace Emumet

/-- `resolve_mute_target`: the id of the target and the text it is shown as. -/
def resolveMuteTarget (server : Server) (outside : Outside) (target : String) :
    Session Db Report (MuteTargetId × String) := do
  let resolved ← resolveBlockTarget server outside target
  pure (resolved.id, resolved.name)

def muteAccount (server : Server) (outside : Outside) (accountNanoid target : String) :
    Session Db Report RelationDto := do
  let account ← Session.read fun db => findAccount db outside.now accountNanoid
  Session.lift (checkPermission outside.permission)
  let (destination, name) ← resolveMuteTarget server outside target
  let mute ← Session.lift <|
    if TargetId.Local account.id = destination then reject .Rejected "Cannot mute yourself"
    else Mute.new outside.relationId (.Local account.id) destination
  let _ ← Session.atomically fun db => MuteRepository.insertIfAbsent db mute
  let targetType := if destination.isLocal then "local" else "remote"
  pure { id := toString mute.id, targetType, target := name }

def unmuteAccount (server : Server) (outside : Outside) (accountNanoid target : String) :
    Session Db Report Unit := do
  let account ← Session.read fun db => findAccount db outside.now accountNanoid
  Session.lift (checkPermission outside.permission)
  let (destination, _) ← resolveMuteTarget server outside target
  Session.exec fun db => .ok (MuteRepository.deleteIfExists db (.Local account.id) destination).2

/-! ### The lists -/

/-- One entry of a list; `kind` is the word of its error texts. -/
def relationDto (kind : String) (now : OffsetDateTime) (db : Db) (id : Int) :
    TargetId → Result RelationDto
  | .Local accountId =>
      match AccountReadModel.findById db now accountId with
      | some account => .ok { id := toString id, targetType := "local", target := account.nanoid }
      | none => reject .Internal (kind ++ " local account not found: " ++ toString accountId)
  | .Remote remoteAccountId =>
      match RemoteAccountRepository.findById db remoteAccountId with
      | some account => .ok { id := toString id, targetType := "remote", target := account.url }
      | none => reject .Internal (kind ++ " remote account not found: " ++ toString remoteAccountId)

def getBlocks (outside : Outside) (accountNanoid : String) (db : Db) : Result (List RelationDto) := do
  let account ← findAccount db outside.now accountNanoid
  checkPermission outside.permission
  let blocks ← BlockRepository.findBlocks db (.Local account.id)
  blocks.mapM fun block => relationDto "Blocked" outside.now db block.id block.destination

def getMutes (outside : Outside) (accountNanoid : String) (db : Db) : Result (List RelationDto) := do
  let account ← findAccount db outside.now accountNanoid
  checkPermission outside.permission
  let mutes ← MuteRepository.findMutes db (.Local account.id)
  mutes.mapM fun mute => relationDto "Muted" outside.now db mute.id mute.destination

/-- The followings of an account, or else its followers. -/
def listApprovedRelations (now : OffsetDateTime) (db : Db) (account : FollowTargetId)
    (following : Bool) : Result (List RelationDto) := do
  let relations ←
    if following then FollowRepository.findFollowings db account
    else FollowRepository.findFollowers db account
  (relations.filter (·.approvedAt.isSome)).mapM fun relation =>
    relationDto "Follow relation" now db relation.id
      (if following then relation.destination else relation.source)

def getFollowRelations (outside : Outside) (accountNanoid : String) (following : Bool) (db : Db) :
    Result (List RelationDto) := do
  let account ← findAccount db outside.now accountNanoid
  checkPermission outside.permission
  listApprovedRelations outside.now db (.Local account.id) following

def getFollowing (outside : Outside) (accountNanoid : String) (db : Db) : Result (List RelationDto) :=
  getFollowRelations outside accountNanoid true db

end Emumet
