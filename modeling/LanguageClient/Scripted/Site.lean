import LanguageClient.Host.Start
import LanguageClient.Scripted.Conduct

/-!
# A host with the scripted server

The directories that every host has, and a host on which the scripted server is installed.
-/

namespace LanguageClient.Scripted

/-- Where the scripted server is installed. -/
def path : String := "/srv/lc/mock-language-server"

/-- The directories of a host, from the root. -/
def directories : List String :=
  ["tmp", "usr/bin", "usr/lib", "etc", "home", "root", "var", "dev", "proc", "sys", "opt", "mnt",
    "run", "srv/lc"]

/-- A tree that holds nothing else; two of the directories have a second name. -/
def emptyTree : Files.Tree :=
  let tree : Files.Tree :=
    directories.foldl (fun tree d => tree.makeDirectories (d.splitOn "/")) {}
  (tree.put ["bin"] (.link "usr/bin")).put ["lib"] (.link "usr/lib")

/-- A host with the scripted server. -/
def site (tree : Files.Tree) (environment : List (String × String)) : Host.Site :=
  Host.Premises.host { tree := tree, environment := environment, installed := [(path, run)] }

end LanguageClient.Scripted
