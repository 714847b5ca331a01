/-
Module: Waspp.Proofs.DocRoot
Layer: Proofs
Purpose: Files are read below `doc_root` only.  A path without `..` stays below the root wherever a NUL cuts
  it, with `index.html` behind it or not; the request's path is opened only after it was searched for `..`,
  and the handlers open files with literal names.  So nothing that `handle_request` does changes when files
  elsewhere do.
Imports: Waspp.Foundation.Paths, Waspp.Model.RequestHandler, Waspp.Proofs.AccessControl
Trusted boundary: none (fully proved)
Main exports: openedPath, DocRoot, below_openedPath, handleRequest_files, files_below_doc_root
Open obligations: none
-/
import Waspp.Foundation.Paths
import Waspp.Model.RequestHandler
import Waspp.Proofs.AccessControl

namespace Waspp

open CString Paths Interaction

/-- The path that `get_file` opens: the C string of `full_path`. -/
def openedPath (env : Env) (requestPath : Bytes) : Bytes :=
  let fullPath := env.cfg.docRoot ++ requestPath
  cstr (if fullPath.getLast? = some '/'.toUInt8 then fullPath ++ bytes "/index.html" else fullPath)

/-- The `doc_root` of an accepted configuration. -/
structure DocRoot (root : Bytes) : Prop where
  slash : root.getLast? = some '/'.toUInt8
  plain : (0 : UInt8) ∉ root

/-- The check of `handle_request` on the decoded path, passed. -/
def Passes (requestUri : Bytes) : Prop :=
  ¬ (requestUri.isEmpty || requestUri.head? ≠ some '/'.toUInt8 || (find requestUri (bytes "..") 0).isSome) =
    true

/-- A path that passes the check has no two dots in a row. -/
theorem Passes.no_dots {requestUri : Bytes} (passes : Passes requestUri) : ¬ bytes ".." <:+: requestUri := by
  intro dots
  apply passes
  rw [find_isSome_iff.mpr dots, Bool.or_true]

/-- A file that is opened for a path without them lies below the document root. -/
theorem below_openedPath {env : Env} (root : DocRoot env.cfg.docRoot) {requestPath : Bytes}
    (none : ¬ bytes ".." <:+: requestPath) : Below env.cfg.docRoot (openedPath env requestPath) := by
  unfold openedPath
  dsimp only
  split
  · rw [List.append_assoc]
    apply below_cstr root.slash root.plain
    intro dots
    rcases dots_append_slash.mp dots with left | right
    · exact none left
    · exact absurd right (by decide)
  · exact below_cstr root.slash root.plain none

/-! ### Other files

The second half: what the server answers does not depend on files outside.  Every function of the server is
compared with itself over other files, which are the same at the paths that it opens. -/

/-- The environment with other files. -/
abbrev Env.withFiles (env : Env) (files : Bytes → Option Bytes) : Env := { env with files := files }

section Files

variable {env : Env} {files : Bytes → Option Bytes}

/-- A file that is the same is read alike. -/
theorem getFile_withFiles {requestPath : Bytes}
    (same : files (openedPath env requestPath) = env.files (openedPath env requestPath)) :
    getFile (env.withFiles files) requestPath = getFile env requestPath := by
  have read : readFile (env.withFiles files) requestPath = readFile env requestPath := by
    funext res
    unfold readFile
    dsimp only
    rw [show files (cstr _) = env.files (cstr _) from same]
  unfold getFile
  rw [read]

/-- The session is no matter of files. -/
theorem session_withFiles : Act.session (env.withFiles files) = Act.session env := rfl

theorem put_withFiles : Act.put (env.withFiles files) = Act.put env := rfl

theorem md5Digest_withFiles : md5Digest (env.withFiles files) = md5Digest env := rfl

theorem fillResponse_withFiles : fillResponse (env.withFiles files) = fillResponse env := rfl

theorem isAccessGranted_withFiles : isAccessGranted (env.withFiles files) = isAccessGranted env := rfl

theorem isAccessDenied_withFiles : isAccessDenied (env.withFiles files) = isAccessDenied env := rfl

-- the names that handlers open are literals, for which the two environments agree
variable (literal : ∀ name : Bytes, ¬ bytes ".." <:+: name →
  getFile (env.withFiles files) name = getFile env name)

include literal

theorem errMsg_withFiles : errMsg (env.withFiles files) = errMsg env := by
  funext errCode
  unfold errMsg
  rw [literal (bytes "dir_include_header.html") (by decide),
    literal (bytes "dir_include_footer.html") (by decide)]

/-- A page of the forum is one file below the root. -/
theorem html_withFiles {file : Bytes} (plain : ¬ bytes ".." <:+: file) :
    DirForum.html (env.withFiles files) file = DirForum.html env file := by
  unfold DirForum.html
  rw [literal (bytes "dir_include_header.html") (by decide),
    literal (bytes "dir_include_footer.html") (by decide), literal file plain, session_withFiles]

theorem page_withFiles {file : Bytes} (plain : ¬ bytes ".." <:+: file) :
    DirUser.page (env.withFiles files) file = DirUser.page env file := by
  unfold DirUser.page
  rw [literal (bytes "dir_include_header.html") (by decide),
    literal (bytes "dir_include_footer.html") (by decide), literal file plain]

theorem forumPost_withFiles : DirForum.post (env.withFiles files) = DirForum.post env := by
  unfold DirForum.post
  rw [errMsg_withFiles literal, session_withFiles]

theorem lookUp_withFiles (passwd : Bytes) (dbShard : Pick) :
    DirUser.lookUp (env.withFiles files) passwd dbShard = DirUser.lookUp env passwd dbShard := by
  unfold DirUser.lookUp DirUser.signIn
  rw [errMsg_withFiles literal, session_withFiles, put_withFiles]

theorem auth_withFiles : DirUser.auth (env.withFiles files) = DirUser.auth env := by
  unfold DirUser.auth
  rw [errMsg_withFiles literal, md5Digest_withFiles]
  simp only [lookUp_withFiles literal]

theorem register_withFiles (md5Passwd : Bytes) (dbShard : Pick) :
    DirUser.register (env.withFiles files) md5Passwd dbShard = DirUser.register env md5Passwd dbShard := by
  unfold DirUser.register DirUser.insert
  rw [errMsg_withFiles literal]

theorem userPost_withFiles : DirUser.post (env.withFiles files) = DirUser.post env := by
  unfold DirUser.post
  rw [errMsg_withFiles literal, md5Digest_withFiles]
  simp only [register_withFiles literal]

/-- No handler sees a file outside. -/
theorem routes_withFiles : routes (env.withFiles files) = routes env := by
  have jsonp : DirForum.indexJsonp (env.withFiles files) = DirForum.indexJsonp env := rfl
  have params : DirForum.paramsJsonp (env.withFiles files) = DirForum.paramsJsonp env := rfl
  have test : DirPerformance.test (env.withFiles files) = DirPerformance.test env := rfl
  have signout : DirUser.signout (env.withFiles files) = DirUser.signout env := rfl
  unfold routes DirForum.indexHtml DirForum.showHtml DirForum.formHtml DirForum.showJsonp DirForum.formJsonp
    DirUser.signinHtml DirUser.signupHtml
  rw [html_withFiles literal (by decide), html_withFiles literal (by decide),
    html_withFiles literal (by decide),
    page_withFiles literal (by decide), page_withFiles literal (by decide), jsonp, params, test, signout,
    forumPost_withFiles literal, auth_withFiles literal, userPost_withFiles literal]

end Files

/-- Two environments that have the same files below the root handle every request in the same way. -/
theorem handleRequest_files {env : Env} (root : DocRoot env.cfg.docRoot) {files : Bytes → Option Bytes}
    (same : ∀ path, Below env.cfg.docRoot path → files path = env.files path) :
    handleRequest (env.withFiles files) (routes (env.withFiles files)) = handleRequest env (routes env) := by
  have literal : ∀ name : Bytes, ¬ bytes ".." <:+: name →
      getFile (env.withFiles files) name = getFile env name :=
    fun name plain => getFile_withFiles (same _ (below_openedPath root plain))
  have tried : tryRequest (env.withFiles files) (routes env) = tryRequest env (routes env) := by
    unfold tryRequest
    rw [fillResponse_withFiles, isAccessGranted_withFiles, isAccessDenied_withFiles]
    congr 1
    funext c
    split
    · rfl
    · split
      · rfl
      · split
        · rfl
        · rename_i requestUri _ passes
          have passed : Passes requestUri := passes
          rw [literal requestUri passed.no_dots]
  rw [routes_withFiles literal]
  unfold handleRequest
  rw [tried]

/-- With an accepted `doc_root`, the path that is opened for a request's uri starts with it and stays below
    it at every prefix; and nothing that `handle_request` does depends on a file elsewhere. -/
theorem files_below_doc_root {env : Env} (root : DocRoot env.cfg.docRoot) :
    (∀ uri requestUri, percentDecodeAndValidate uri = some requestUri → Passes requestUri →
        Below env.cfg.docRoot (openedPath env requestUri)) ∧
      ∀ files, (∀ path, Below env.cfg.docRoot path → files path = env.files path) →
        handleRequest (env.withFiles files) (routes (env.withFiles files)) =
          handleRequest env (routes env) := by
  constructor
  · intro uri requestUri _ passes
    exact below_openedPath root passes.no_dots
  · intro files same
    exact handleRequest_files root same

/-- A uri whose decoded path has a NUL in front of its last slash. -/
theorem files_below_doc_root_nul :
    Below (bytes "../doc/") (openedPath bareEnv [47, 97, 0, 98, 47]) ∧
      openedPath bareEnv [47, 97, 0, 98, 47] = bytes "../doc//a" := by
  have root : DocRoot bareEnv.cfg.docRoot := ⟨by decide, by decide⟩
  have passes : Passes [47, 97, 0, 98, 47] := by
    unfold Passes
    decide +kernel
  refine ⟨?_, by decide⟩
  exact (files_below_doc_root root).1 (bytes "/a%00b/") [47, 97, 0, 98, 47] (by decide +kernel) passes

end Waspp
