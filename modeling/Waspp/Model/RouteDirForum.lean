/-
Module: Waspp.Model.RouteDirForum
Layer: Model
Purpose: The handlers of `dir_forum`.  Each page exists twice, as a frame in HTML and as data in JSON; both
  ask the session for a signed-in user before anything else.  `post` writes a row.
Imports: Waspp.Model.Router
Trusted boundary: human-reviewed translation of route_dir_forum.cpp
Main exports: DirForum.html, DirForum.indexJsonp, DirForum.paramsJsonp, DirForum.post
Open obligations: none
-/
import Waspp.Model.Router

namespace Waspp

open CString Interaction

/-! ### JSON answers -/

/-- A leaf of a property tree. -/
def Ptree.leaf (data : Bytes) : Ptree := .node data []

/-- An inner node of a property tree. -/
def Ptree.object (children : List (Bytes × Ptree)) : Ptree := .node [] children

/-- A list in a property tree: children without a name. -/
def Ptree.array (items : List Ptree) : Ptree := .node [] (items.map fun item => ([], item))

/-- The `_error` part of an answer. -/
def errorJson (env : Env) (errCode : ErrorType) : Bytes × Ptree :=
  (bytes "_error",
    .object [(bytes "_code", .leaf (toDecimal errCode.code)),
      (bytes "_message", .leaf (env.cfg.errMsg errCode))])

/-- The `_session` part of an answer. -/
def sessionJson (userid username : Bytes) : Bytes × Ptree :=
  (bytes "_session", .object [(bytes "_userid", .leaf userid), (bytes "_username", .leaf username)])

/-- The `_forum_search` part of an answer, from the fifth and sixth parts of the path. -/
def forumSearchJson (restParams : List Bytes) : Bytes × Ptree :=
  let (field, keyword) :=
    if restParams.length > 5 then (restParams.getD 4 [], restParams.getD 5 []) else ([], [])
  (bytes "_forum_search", .object [(bytes "_field", .leaf field), (bytes "_keyword", .leaf keyword)])

/-- One row in the `_forum_index` part of an answer. -/
def forumItemJson (row : ForumRow) : Ptree :=
  .object
    [(bytes "_seq", .leaf (toDecimal row.seq)), (bytes "_title", .leaf row.title),
      (bytes "_username", .leaf row.username), (bytes "_updatetime", .leaf row.updatetime)]

/-- The `_pagination` part of an answer. -/
def paginationJson (totalCount : Nat) : Bytes × Ptree :=
  (bytes "_pagination",
    .object
      [(bytes "_total_count", .leaf (toDecimal totalCount)), (bytes "_page_count", .leaf (toDecimal 10)),
        (bytes "_link_count", .leaf (toDecimal 10))])

/-- The end of a JSON answer: the written tree between `jsonp_start` and `jsonp_end`. -/
def writeJsonp (env : Env) (json : Ptree) : Act Unit := do
  let text ← Act.writeJson env json
  Act.respond fun res =>
    { ((res.append (bytes "_(")).append text).append (bytes ");") with contentExtension := bytes "js" }

namespace DirForum

variable (env : Env)

/-- The shape that `index_html`, `show_html` and `form_html` share. -/
def html (file : Bytes) : Act Unit := do
  let sess ← Act.session env
  if (sess.get (bytes "userid")).1.isEmpty then
    Act.redirectTo (bytes "/dir/user/signin")
  else
    let _ ← getFile env (bytes "dir_include_header.html")
    let _ ← getFile env file
    setJsonp
    let _ ← getFile env (bytes "dir_include_footer.html")

/-- `index_html`. -/
def indexHtml : Act Unit := html env (bytes "dir_forum_index.html")

/-- `show_html`. -/
def showHtml : Act Unit := html env (bytes "dir_forum_show.html")

/-- `form_html`. -/
def formHtml : Act Unit := html env (bytes "dir_forum_form.html")

/-- `index_jsonp`. -/
def indexJsonp : Act Unit := do
  let sess ← Act.session env
  let (userid, sess) := sess.get (bytes "userid")
  if userid.isEmpty then
    writeJsonp env (.object [errorJson env .unauthorized])
  else
    let (username, _) := sess.get (bytes "username")
    let c ← Action.get
    Act.db (.checkout (.dbname dbEtc))
    let totalCount ← Act.db (.countForum dbEtc)
    let rows ← Act.db (.selectForum dbEtc)
    writeJsonp env (.object
      [errorJson env .none, sessionJson userid username, forumSearchJson c.req.restParams,
        (bytes "_forum_index", .array (rows.map forumItemJson)), paginationJson totalCount])

/-- The shape that `show_jsonp` and `form_jsonp` share. -/
def paramsJsonp : Act Unit := do
  let sess ← Act.session env
  let (userid, sess) := sess.get (bytes "userid")
  if userid.isEmpty then
    writeJsonp env (.object [errorJson env .unauthorized])
  else
    let (username, _) := sess.get (bytes "username")
    let c ← Action.get
    writeJsonp env (.object
      [errorJson env .none, sessionJson userid username,
        (bytes "_params", .array (c.req.restParams.map Ptree.leaf))])

/-- `show_jsonp`. -/
def showJsonp : Act Unit := paramsJsonp env

/-- `form_jsonp`. -/
def formJsonp : Act Unit := paramsJsonp env

/-- `del`. -/
def del : Act Unit := pure ()

/-- `post`.  The pool is picked with the text `db_etc` as a shard key. -/
def post : Act Unit := do
  let sess ← Act.session env
  let (useridText, sess) := sess.get (bytes "userid")
  if useridText.isEmpty then
    Act.redirectTo (bytes "/dir/user/signin")
  else
    let userid := strtoul useridText
    let seqText ← Act.param (bytes "seq")
    let seq := if seqText.isEmpty then 0 else strtoul seqText
    if (← Act.param (bytes "title")).isEmpty then
      errMsg env .titleRequired
    else if (← Act.param (bytes "content")).isEmpty then
      errMsg env .contentRequired
    else
      let pool := shardOfString env.cfg.dbShardCount (bytes "db_etc")
      Act.db (.checkout (.shardKey env.cfg.dbShardCount (bytes "db_etc")))
      if seq = 0 then
        let lastKey ← Act.db (.uniqueKeys pool (bytes "forum") 1)
        -- get<unsigned int> reads the first byte of the column buffer
        let byte := lastKey.getD 0 % 256
        let seq := if byte < 128 then byte else 2 ^ 32 - 256 + byte
        let title ← Act.param (bytes "title")
        let content ← Act.param (bytes "content")
        let (username, _) := sess.get (bytes "username")
        let affectedRows ← Act.db (.insertForum pool
          { seq := seq
            title := title
            content := content
            userid := userid
            username := username
            updatetime := env.sqlNow })
        if affectedRows = 0 then
          errMsg env .forumInsertFailed
        else
          Act.redirectTo (bytes "/dir/forum/index")
      else
        let title ← Act.param (bytes "title")
        let content ← Act.param (bytes "content")
        let username ← Act.param (bytes "username")
        let _ ← Act.db (.updateForum pool title content username env.sqlNow seq userid)
        Act.redirectTo (bytes "/dir/forum/index")

end DirForum

end Waspp
