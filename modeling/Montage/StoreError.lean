import Montage.Document.Reader
import Montage.FileTree
import Montage.Text.Quoted

/-!
# What can be wrong with stored files

Faults of the file tree with the path they concern, and files whose content cannot be used.
-/

namespace Montage

/-- The number by which a fault is known to the operating system, and its text there. -/
def FileFault.description : FileFault → String
  | .notFound => "[Errno 2] No such file or directory"
  | .notADirectory => "[Errno 20] Not a directory"
  | .isADirectory => "[Errno 21] Is a directory"
  | .nameTooLong => "[Errno 36] File name too long"
  | .badName => "embedded null byte"
  | .loneSurrogate => "o caminho não cabe em UTF-8"

inductive StoreError where
  | file (fault : FileFault) (path : Path)
  | notText
  /-- The text holds a lone surrogate, which no file can hold. -/
  | notStorable
  | unreadable (cause : Document.ReadError)
  /-- The script defines nothing that could change a project. -/
  | noTransform (script : Path)
deriving DecidableEq

def StoreError.message : StoreError → String
  | .file .badName _ => FileFault.badName.description
  | .file .loneSurrogate _ => FileFault.loneSurrogate.description
  | .file fault path => fault.description ++ ": " ++ Text.quoted path.toString
  | .notText => "o arquivo não é texto UTF-8"
  | .notStorable => "o texto não cabe em UTF-8"
  | .unreadable .malformed => "o arquivo não é um documento JSON"
  | .unreadable (.tooManyDigits count) =>
    "Exceeds the limit (" ++ decimalText Text.maxDigits ++
      " digits) for integer string conversion: value has " ++ decimalText count ++
      " digits; use sys.set_int_max_str_digits() to increase the limit"
  | .unreadable .tooDeep => "o documento é profundo demais"
  | .noTransform script => script.toString ++ " não define transform(project)"

end Montage
