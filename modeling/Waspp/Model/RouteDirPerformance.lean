/-
Module: Waspp.Model.RouteDirPerformance
Layer: Model
Purpose: The handler of `dir_performance`, which signs the session in as the user `test` and answers with the
  forum's rows.
Imports: Waspp.Model.RouteDirForum
Trusted boundary: human-reviewed translation of route_dir_performance.cpp
Main exports: DirPerformance.test
Open obligations: none
-/
import Waspp.Model.RouteDirForum

namespace Waspp.DirPerformance

open CString Interaction

/-- `test`.  The pool is picked with the text `db_etc` as a shard key. -/
def test (env : Env) : Act Unit := do
  let sess ← Act.session env
  let sess ← Act.put env sess (bytes "userid") (bytes "test")
  let (userid, sess) := sess.get (bytes "userid")
  let (username, _) := sess.get (bytes "username")
  let c ← Action.get
  let pool := shardOfString env.cfg.dbShardCount (bytes "db_etc")
  Act.db (.checkout (.shardKey env.cfg.dbShardCount (bytes "db_etc")))
  let totalCount ← Act.db (.countForum pool)
  let rows ← Act.db (.selectForum pool)
  writeJsonp env (.object
    [errorJson env .none, sessionJson userid username, forumSearchJson c.req.restParams,
      (bytes "_forum_index", .array (rows.map forumItemJson)), paginationJson totalCount])

end Waspp.DirPerformance
