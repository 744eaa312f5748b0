import TaintdroidHack.ActivityUploads
import TaintdroidHack.ContactBodies
import TaintdroidHack.ContactCursors
import TaintdroidHack.ContactsFile
import TaintdroidHack.IrefIterator
import TaintdroidHack.Requests
import TaintdroidHack.ThreadScopes
import TaintdroidHack.TransferInvariant
import TaintdroidHack.UntaintRuns
