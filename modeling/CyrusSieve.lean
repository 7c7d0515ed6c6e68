import CyrusSieve.Model.Types
import CyrusSieve.Model.Notify
import CyrusSieve.Model.Execute
import CyrusSieve.Model.Load
import CyrusSieve.Spec.Observe
import CyrusSieve.Spec.Template
import CyrusSieve.Spec.Trace
import CyrusSieve.Model.Release
import CyrusSieve.Proofs.ActionLoop
import CyrusSieve.Proofs.ErrorPath
import CyrusSieve.Proofs.Execute
import CyrusSieve.Proofs.ErrorReport
import CyrusSieve.Proofs.Load
import CyrusSieve.Proofs.Notify
import CyrusSieve.Proofs.Template
import CyrusSieve.Proofs.Trace
import CyrusSieve.Proofs.Release
